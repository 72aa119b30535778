import ServiceKernel.Worker.TaskTable

/-! What the history, the join set and the breaker say of one worker, and what
each function of the supervisor does to it. -/
namespace ServiceKernel

open Execution

/-- How often the history mentions a worker, by kind. -/
@[ext]
structure Counts where
  spawned : Nat
  started : Nat
  outcomes : Nat
  restarted : Nat
  halfOpened : Nat
  deriving DecidableEq

namespace Counts

/-- Nothing has been recorded. -/
def zero : Counts := ⟨0, 0, 0, 0, 0⟩

/-- Post one record to the account of worker `i`. -/
def post (c : Counts) (i : WorkerId) : SupervisorRecord → Counts
  | .spawned id _ _ => if i = id then { c with spawned := c.spawned + 1 } else c
  | .handled id _ _ => if i = id then { c with outcomes := c.outcomes + 1 } else c
  | .event (.started id _) => if i = id then { c with started := c.started + 1 } else c
  | .event (.restarted id _ _) => if i = id then { c with restarted := c.restarted + 1 } else c
  | .event (.circuitHalfOpened id _) =>
    if i = id then { c with halfOpened := c.halfOpened + 1 } else c
  | _ => c

/-- The account of worker `i` after these records. -/
def ofHistory (i : WorkerId) (history : List SupervisorRecord) : Counts :=
  history.foldl (fun c record => c.post i record) zero

@[simp] theorem ofHistory_nil (i : WorkerId) : ofHistory i [] = zero := rfl

@[simp] theorem ofHistory_concat (i : WorkerId) (history : List SupervisorRecord)
    (record : SupervisorRecord) :
    ofHistory i (history ++ [record]) = (ofHistory i history).post i record := by
  simp [ofHistory]

end Counts

/-- The account of one worker. -/
@[ext]
structure Ledger extends Counts where
  inFlight : Nat
  breaker : Option CircuitBreaker

namespace Ledger

/-- A record moves the counts only. -/
def post (l : Ledger) (i : WorkerId) (record : SupervisorRecord) : Ledger :=
  { l with toCounts := l.toCounts.post i record }

/-- A task started. -/
def spawn (l : Ledger) : Ledger :=
  { l with inFlight := l.inFlight + 1, spawned := l.spawned + 1, started := l.started + 1 }

/-- A restart announced, and its task started. -/
def restart (l : Ledger) : Ledger := { l with restarted := l.restarted + 1 }.spawn

/-- A half-open breaker announced, and its trial started. -/
def trial (l : Ledger) : Ledger := { l with halfOpened := l.halfOpened + 1 }.spawn

/-- An outcome put before the breaker at `now`. -/
def advanceCircuit (l : Ledger) (hasFailed : Bool) (now : Instant) : Ledger :=
  { l with breaker := l.breaker.map (·.record hasFailed now) }

/-- A task joined and its outcome handled. -/
def settle (l : Ledger) (hasFailed : Bool) (now : Instant) : Ledger :=
  { l with inFlight := l.inFlight - 1, outcomes := l.outcomes + 1 }.advanceCircuit hasFailed now

/-- A tick of the breaker at `now`. -/
def tickBreaker (l : Ledger) (now : Instant) : Ledger :=
  { l with breaker := l.breaker.map (·.tick now) }

end Ledger

namespace Supervisor

/-- The part of the state that spawning and joining work on. -/
def tasks (s : Supervisor) : TaskTable := ⟨s.ids, s.joinSet, s.taskToWorker, s.contexts⟩

/-- The account of worker `i` as the state has it. -/
def ledger (s : Supervisor) (i : WorkerId) : Ledger where
  toCounts := .ofHistory i s.history
  inFlight := s.tasks.inFlight i
  breaker := (s.worker i).circuit

variable {T : TaskIds} {s : Supervisor} {id i : WorkerId}

@[simp] theorem tasks_log (record : SupervisorRecord) : (s.log record).tasks = s.tasks := rfl

@[simp] theorem tasks_emit (event : WorkerLifecycleEvent) : (s.emit event).tasks = s.tasks := rfl

@[simp] theorem tasks_modifyWorker (f : RegisteredWorker → RegisteredWorker) :
    (s.modifyWorker id f).tasks = s.tasks := rfl

@[simp] theorem tasks_setState (state : WorkerState) : (s.setState id state).tasks = s.tasks := rfl

@[simp] theorem tasks_cancelWorkerToken : (s.cancelWorkerToken id).tasks = s.tasks := rfl

/-- A registered worker gets one more task. -/
theorem tasks_spawnOne (h : id ∈ s.ids) : (s.spawnOne T id).tasks = s.tasks.spawn T id := by
  simp only [spawnOne, if_pos h]
  rfl

/-- What is logged is posted to every account. -/
@[simp] theorem ledger_log (record : SupervisorRecord) :
    (s.log record).ledger i = (s.ledger i).post i record := by
  have hCounts : Counts.ofHistory i (s.log record).history =
      (Counts.ofHistory i s.history).post i record := Counts.ofHistory_concat ..
  simp only [ledger, hCounts, tasks_log, Ledger.post]
  rfl

@[simp] theorem ledger_emit (event : WorkerLifecycleEvent) :
    (s.emit event).ledger i = (s.ledger i).post i (.event event) := ledger_log _

/-- Changes to a worker that leave its breaker alone do not show. -/
theorem ledger_modifyWorker {f : RegisteredWorker → RegisteredWorker}
    (h : (f (s.worker id)).circuit = (s.worker id).circuit) :
    (s.modifyWorker id f).ledger i = s.ledger i := by
  rcases eq_or_ne i id with rfl | hne
  · simp [ledger, modifyWorker, tasks, h]
  · simp [ledger, modifyWorker, tasks, hne]

/-- The state cell is not part of the account. -/
@[simp] theorem ledger_setState (state : WorkerState) :
    (s.setState id state).ledger i = s.ledger i := by
  simp only [setState, ledger_log]
  exact ledger_modifyWorker rfl

@[simp] theorem ledger_cancelWorkerToken : (s.cancelWorkerToken id).ledger i = s.ledger i :=
  ledger_modifyWorker rfl

/-- A spawned task is in flight, and recorded as spawned. -/
theorem ledger_spawnTask : (s.spawnTask T id).ledger i = if i = id then
    { s.ledger i with inFlight := (s.ledger i).inFlight + 1, spawned := (s.ledger i).spawned + 1 }
    else s.ledger i := by
  have hInFlight : (s.spawnTask T id).tasks.inFlight i =
      if i = id then s.tasks.inFlight i + 1 else s.tasks.inFlight i :=
    TaskTable.spawn_inFlight (t := s.tasks)
  have hCounts : Counts.ofHistory i (s.spawnTask T id).history =
      (Counts.ofHistory i s.history).post i (.spawned id s.contexts.length (s.isCancelled id)) :=
    Counts.ofHistory_concat ..
  simp only [ledger, hInFlight, hCounts, Counts.post]
  split_ifs <;> rfl

/-- A spawn is one task started, for its own worker only. -/
theorem ledger_spawnOne (h : id ∈ s.ids) : (s.spawnOne T id).ledger i =
    if i = id then (s.ledger i).spawn else s.ledger i := by
  simp only [spawnOne, if_pos h, ledger_emit, ledger_setState, ledger_spawnTask, Ledger.post,
    Counts.post]
  split_ifs <;> rfl

/-- The parts of the supervisor that a worker's own affairs leave alone. -/
structure Frame where
  ids : List WorkerId
  clock : Instant
  cancelled : Bool
  spec : WorkerId → WorkerSpec
  handleId : WorkerId → WorkerId

/-- The frame of a state. -/
def frame (s : Supervisor) : Frame :=
  ⟨s.ids, s.clock, s.cancelled, fun i => (s.worker i).spec, fun i => (s.worker i).handle.id⟩

@[simp] theorem frame_log (record : SupervisorRecord) : (s.log record).frame = s.frame := rfl

@[simp] theorem frame_emit (event : WorkerLifecycleEvent) : (s.emit event).frame = s.frame := rfl

/-- What a function does to a worker may not touch its spec and its id. -/
theorem frame_modifyWorker {f : RegisteredWorker → RegisteredWorker}
    (hSpec : (f (s.worker id)).spec = (s.worker id).spec)
    (hId : (f (s.worker id)).handle.id = (s.worker id).handle.id) :
    (s.modifyWorker id f).frame = s.frame := by
  simp only [frame, modifyWorker, Frame.mk.injEq, true_and]
  constructor
  · funext i
    rcases eq_or_ne i id with rfl | hne
    · simpa using hSpec
    · simp [hne]
  · funext i
    rcases eq_or_ne i id with rfl | hne
    · simpa using hId
    · simp [hne]

@[simp] theorem frame_setState (state : WorkerState) : (s.setState id state).frame = s.frame := by
  simp only [setState, frame_log]
  exact frame_modifyWorker rfl rfl

@[simp] theorem frame_cancelWorkerToken : (s.cancelWorkerToken id).frame = s.frame :=
  frame_modifyWorker rfl rfl

@[simp] theorem frame_spawnTask : (s.spawnTask T id).frame = s.frame := rfl

/-- A spawn leaves the frame alone. -/
@[simp] theorem frame_spawnOne : (s.spawnOne T id).frame = s.frame := by
  unfold spawnOne
  split_ifs
  · simp only [frame_emit, frame_setState, frame_spawnTask]
  · rfl

theorem ids_eq {s s' : Supervisor} (h : s'.frame = s.frame) : s'.ids = s.ids := congrArg Frame.ids h

theorem clock_eq {s s' : Supervisor} (h : s'.frame = s.frame) : s'.clock = s.clock :=
  congrArg Frame.clock h

/-- Breaker events are not counted. -/
theorem post_circuitEvent {l : Ledger} {name : String} {failures : UInt32} {prior next : CircuitState}
    {event : WorkerLifecycleEvent} (h : circuitEvent id name failures prior next = some event) :
    l.post i (.event event) = l := by
  cases prior <;> cases next <;> cases h <;> rfl

@[simp] theorem tasks_storeBreaker (hasFailed : Bool) (after : CircuitBreaker) :
    (s.storeBreaker id hasFailed after).tasks = s.tasks := rfl

@[simp] theorem frame_storeBreaker (hasFailed : Bool) (after : CircuitBreaker) :
    (s.storeBreaker id hasFailed after).frame = s.frame := by
  simp only [storeBreaker, frame_log]
  exact frame_modifyWorker rfl rfl

/-- Only the owner of a breaker sees it stored. -/
@[simp] theorem ledger_storeBreaker (hasFailed : Bool) (after : CircuitBreaker) :
    (s.storeBreaker id hasFailed after).ledger i =
      if i = id then { s.ledger i with breaker := some after } else s.ledger i := by
  rw [storeBreaker, ledger_log]
  rcases eq_or_ne i id with rfl | hne
  · simp [ledger, modifyWorker, tasks, Ledger.post, Counts.post]
  · simp [ledger, modifyWorker, tasks, Ledger.post, Counts.post, hne]

/-- The two effects of putting an outcome before the breaker: its owner's breaker
moves, and the result tells whether it is open now. -/
theorem advanceCircuit_spec (h : id ∈ s.ids) (hasFailed : Bool) :
    (s.advanceCircuit id hasFailed).1.frame = s.frame ∧
    (s.advanceCircuit id hasFailed).1.tasks = s.tasks ∧
    (∀ i, (s.advanceCircuit id hasFailed).1.ledger i =
      if i = id then (s.ledger i).advanceCircuit hasFailed s.clock else s.ledger i) ∧
    ((s.advanceCircuit id hasFailed).2 = true ↔
      ∃ b, ((s.ledger id).advanceCircuit hasFailed s.clock).breaker = some b ∧
        b.state = .opened) := by
  have hBreaker : ((s.ledger id).advanceCircuit hasFailed s.clock).breaker =
      (s.worker id).circuit.map (·.record hasFailed s.clock) := rfl
  have hLedger : ∀ i, (if i = id then (s.ledger i).advanceCircuit hasFailed s.clock
      else s.ledger i) = if i = id then { s.ledger i with
        breaker := (s.worker id).circuit.map (·.record hasFailed s.clock) } else s.ledger i := by
    intro i
    split_ifs with hSame
    · rw [hSame]
      rfl
    · rfl
  simp only [hBreaker, hLedger]
  cases hCircuit : (s.worker id).circuit with
  | none =>
      simp only [advanceCircuit, if_pos h, hCircuit, true_and]
      refine ⟨fun i => ?_, by simp⟩
      split_ifs with hSame
      · rw [hSame, Option.map_none, ← hCircuit]
        rfl
      · rfl
  | some breaker =>
      simp only [advanceCircuit, if_pos h, hCircuit]
      split
      · rename_i event hEvent
        refine ⟨by simp, by simp, fun i => ?_, by simp⟩
        rw [ledger_emit, post_circuitEvent hEvent, ledger_storeBreaker]
        rfl
      · exact ⟨by simp, by simp, fun i => ledger_storeBreaker .., by simp⟩

/-- The breaker is advanced without a wait. -/
theorem advanceCircuit_phase (hasFailed : Bool) :
    (s.advanceCircuit id hasFailed).1.phase = s.phase := by
  unfold advanceCircuit
  split_ifs
  · split
    · rfl
    · simp only []
      split <;> rfl
  · rfl

@[simp] theorem frame_applyCriticality (name : String) (criticality : Criticality) :
    (s.applyCriticality name criticality).frame = s.frame := by
  cases criticality <;> rfl

@[simp] theorem tasks_applyCriticality (name : String) (criticality : Criticality) :
    (s.applyCriticality name criticality).tasks = s.tasks := by
  cases criticality <;> rfl

@[simp] theorem ledger_applyCriticality (name : String) (criticality : Criticality) :
    (s.applyCriticality name criticality).ledger i = s.ledger i := by
  cases criticality with
  | background => rfl
  | _ => exact ledger_log _

/-- After its wait a restart spawns its worker and leads back to the head of the loop. -/
theorem restartNow_spec (h : id ∈ s.ids) (name : String) (attempts : UInt32) :
    (s.restartNow T id name attempts).frame = s.frame ∧
    (s.restartNow T id name attempts).phase = .head ∧
    (s.restartNow T id name attempts).tasks = s.tasks.spawn T id ∧
    ∀ i, (s.restartNow T id name attempts).ledger i =
      if i = id then (s.ledger i).restart else s.ledger i := by
  let logged := (s.emit (.restarted id name (saturatingAddU32 attempts 1))).log
    (.counter .workersRestarted name)
  have hMem : id ∈ logged.ids := h
  refine ⟨?_, rfl, tasks_spawnOne hMem, fun i => ?_⟩
  · exact (frame_spawnOne (T := T) (s := logged)).trans rfl
  · apply (ledger_spawnOne (T := T) (i := i) hMem).trans
    simp only [logged, ledger_log, ledger_emit, Ledger.post, Counts.post]
    split_ifs <;> rfl

@[simp] theorem frame_consultPolicy (hasFailed : Bool) (wall : Option Nat) :
    (s.consultPolicy id hasFailed wall).1.frame = s.frame := by
  simp only [consultPolicy, frame_log]
  apply frame_modifyWorker rfl
  cases hasFailed <;> rfl

@[simp] theorem tasks_consultPolicy (hasFailed : Bool) (wall : Option Nat) :
    (s.consultPolicy id hasFailed wall).1.tasks = s.tasks := rfl

/-- The policy is asked about the handle and not about the account. -/
@[simp] theorem ledger_consultPolicy (hasFailed : Bool) (wall : Option Nat) :
    (s.consultPolicy id hasFailed wall).1.ledger i = s.ledger i := by
  simp only [consultPolicy, ledger_log]
  exact ledger_modifyWorker rfl

@[simp] theorem phase_consultPolicy (hasFailed : Bool) (wall : Option Nat) :
    (s.consultPolicy id hasFailed wall).1.phase = s.phase := rfl

@[simp] theorem frame_retire (hasFailed : Bool) : (s.retire id hasFailed).frame = s.frame := by
  unfold retire
  cases hasFailed <;> simp

@[simp] theorem tasks_retire (hasFailed : Bool) : (s.retire id hasFailed).tasks = s.tasks := by
  unfold retire
  cases hasFailed <;> simp

/-- A worker is retired with its account as it is. -/
@[simp] theorem ledger_retire (hasFailed : Bool) : (s.retire id hasFailed).ledger i = s.ledger i := by
  unfold retire
  cases hasFailed <;> simp [Ledger.post, Counts.post]

@[simp] theorem phase_retire (hasFailed : Bool) : (s.retire id hasFailed).phase = s.phase := by
  cases hasFailed with
  | false => rfl
  | true =>
      simp only [retire, if_true]
      cases (s.worker id).spec.criticality <;> rfl

/-- How a handled outcome ends: the worker is retired, waits for its restart, or
runs again. It is retired whenever its circuit is open. -/
inductive Aftermath (T : TaskIds) (id : WorkerId) (circuitOpen : Bool) (s s' : Supervisor) :
    Prop where
  | retired (hPhase : s'.phase = s.phase) (hTasks : s'.tasks = s.tasks)
      (hLedger : ∀ i, s'.ledger i = s.ledger i)
  | waiting {name : String} {attempts : UInt32} {due : Instant} (hClosed : circuitOpen = false)
      (hPhase : s'.phase = .backoff id name attempts due) (hTasks : s'.tasks = s.tasks)
      (hLedger : ∀ i, s'.ledger i = s.ledger i)
  | restarted (hClosed : circuitOpen = false) (hPhase : s'.phase = .head)
      (hTasks : s'.tasks = s.tasks.spawn T id)
      (hLedger : ∀ i, s'.ledger i = if i = id then (s.ledger i).restart else s.ledger i)

/-- The aftermath leaves the breaker alone. -/
theorem Aftermath.breaker {circuitOpen : Bool} {s s' : Supervisor}
    (h : Aftermath T id circuitOpen s s') : (s'.ledger i).breaker = (s.ledger i).breaker := by
  cases h with
  | retired _ _ hLedger => rw [hLedger]
  | waiting _ _ _ hLedger => rw [hLedger]
  | restarted _ _ _ hLedger =>
      rw [hLedger]
      split_ifs <;> rfl

/-- The aftermath is an affair of one worker. -/
theorem Aftermath.other {circuitOpen : Bool} {s s' : Supervisor}
    (h : Aftermath T id circuitOpen s s') (hne : i ≠ id) : s'.ledger i = s.ledger i := by
  cases h with
  | retired _ _ hLedger => exact hLedger i
  | waiting _ _ _ hLedger => exact hLedger i
  | restarted _ _ _ hLedger => rw [hLedger, if_neg hne]

/-- A restart goes through at once, or waits for the backoff. -/
theorem beginRestart_spec (h : id ∈ s.ids) (attempts : UInt32) :
    (s.beginRestart T id attempts).frame = s.frame ∧
    Aftermath T id false s (s.beginRestart T id attempts) := by
  have hMem : id ∈ (s.setState id .restarting).ids := h
  unfold beginRestart
  simp only []
  split_ifs with hZero
  · obtain ⟨hFrame, hPhase, hTasks, hLedger⟩ :=
      restartNow_spec (T := T) hMem (s.worker id).spec.name attempts
    refine ⟨by rw [hFrame, frame_setState], Aftermath.restarted rfl hPhase hTasks fun i => ?_⟩
    rw [hLedger, ledger_setState]
  · refine ⟨?_, Aftermath.waiting rfl rfl rfl fun i => ?_⟩
    · exact frame_setState (s := s) .restarting
    · exact (ledger_log (s := s.setState id .restarting) (.backingOff id _)).trans
        (ledger_setState .restarting)

/-- The aftermath only depends on what it shares with an earlier state. -/
theorem Aftermath.of_same {circuitOpen : Bool} {s₀ s s' : Supervisor}
    (h : Aftermath T id circuitOpen s s') (hPhase : s.phase = s₀.phase) (hTasks : s.tasks = s₀.tasks)
    (hLedger : ∀ i, s.ledger i = s₀.ledger i) : Aftermath T id circuitOpen s₀ s' := by
  cases h with
  | retired h₁ h₂ h₃ =>
      exact .retired (h₁.trans hPhase) (h₂.trans hTasks) fun i => (h₃ i).trans (hLedger i)
  | waiting h₀ h₁ h₂ h₃ =>
      exact .waiting h₀ h₁ (h₂.trans hTasks) fun i => (h₃ i).trans (hLedger i)
  | restarted h₀ h₁ h₂ h₃ =>
      exact .restarted h₀ h₁ (hTasks ▸ h₂) fun i => by rw [h₃, hLedger]

/-- Whatever the policy answers, one of the aftermaths follows. -/
theorem decideRestart_spec (h : id ∈ s.ids) (circuitOpen hasFailed : Bool) (wall : Option Nat) :
    (s.decideRestart T circuitOpen id hasFailed wall).frame = s.frame ∧
    Aftermath T id circuitOpen s (s.decideRestart T circuitOpen id hasFailed wall) := by
  have hMem : id ∈ (s.consultPolicy id hasFailed wall).1.ids := h
  unfold decideRestart
  simp only []
  split_ifs with hRestart
  · obtain ⟨hFrame, hAfter⟩ :=
      beginRestart_spec (T := T) hMem (s.consultPolicy id hasFailed wall).2.2
    refine ⟨by rw [hFrame, frame_consultPolicy], ?_⟩
    simp only [Bool.and_eq_true, Bool.not_eq_true'] at hRestart
    rw [hRestart.2]
    exact hAfter.of_same rfl rfl fun i => ledger_consultPolicy ..
  · exact ⟨by simp, .retired (by simp) (by simp) fun i => by simp⟩

@[simp] theorem frame_announceOutcome (run : Nat) (outcome : SupervisorOutcome) :
    (s.announceOutcome id run outcome).frame = s.frame := by
  unfold announceOutcome
  cases outcome <;> simp [SupervisorOutcome.hasFailed]

@[simp] theorem tasks_announceOutcome (run : Nat) (outcome : SupervisorOutcome) :
    (s.announceOutcome id run outcome).tasks = s.tasks := by
  unfold announceOutcome
  cases outcome <;> simp [SupervisorOutcome.hasFailed]

@[simp] theorem phase_announceOutcome (run : Nat) (outcome : SupervisorOutcome) :
    (s.announceOutcome id run outcome).phase = s.phase := by
  cases outcome <;> rfl

/-- An outcome is counted once, for the worker it belongs to. -/
theorem ledger_announceOutcome (run : Nat) (outcome : SupervisorOutcome) :
    (s.announceOutcome id run outcome).ledger i =
      if i = id then { s.ledger i with outcomes := (s.ledger i).outcomes + 1 }
      else s.ledger i := by
  have hHandled : ((s.log (.handled id run outcome)).emit
      (outcome.event id (s.worker id).spec.name)).ledger i =
      (s.ledger i).post i (.handled id run outcome) := by
    cases outcome <;> simp [SupervisorOutcome.event, Ledger.post, Counts.post]
  have hSame : (s.announceOutcome id run outcome).ledger i =
      (s.ledger i).post i (.handled id run outcome) := by
    unfold announceOutcome
    simp only []
    split_ifs
    · rw [ledger_log, hHandled]
      rfl
    · exact hHandled
  rw [hSame]
  simp only [Ledger.post, Counts.post]
  split_ifs <;> rfl

/-- Handling an outcome advances the breaker of its worker, and then one of the
three aftermaths follows. -/
theorem handleOutcome_spec (h : id ∈ s.ids) (run : Nat) (outcome : SupervisorOutcome)
    (wall : Option Nat) :
    (s.handleOutcome T id run outcome wall).frame = s.frame ∧
    ∃ mid circuitOpen, mid.phase = s.phase ∧ mid.tasks = s.tasks ∧
      (∀ i, mid.ledger i = if i = id then
        { s.ledger i with outcomes := (s.ledger i).outcomes + 1 }.advanceCircuit outcome.hasFailed s.clock
        else s.ledger i) ∧
      (circuitOpen = true ↔ ∃ b, (mid.ledger id).breaker = some b ∧ b.state = .opened) ∧
      Aftermath T id circuitOpen mid (s.handleOutcome T id run outcome wall) := by
  have hAnnounced : (s.announceOutcome id run outcome).frame = s.frame := frame_announceOutcome ..
  have hMem : id ∈ (s.announceOutcome id run outcome).ids := by rw [ids_eq hAnnounced]; exact h
  obtain ⟨hFrame, hTasks, hLedger, hOpen⟩ :=
    advanceCircuit_spec (s := s.announceOutcome id run outcome) hMem outcome.hasFailed
  have hMem' : id ∈ ((s.announceOutcome id run outcome).advanceCircuit id outcome.hasFailed).1.ids := by
    rw [ids_eq hFrame]
    exact hMem
  obtain ⟨hFrame', hAfter⟩ := decideRestart_spec (T := T) hMem'
    ((s.announceOutcome id run outcome).advanceCircuit id outcome.hasFailed).2 outcome.hasFailed wall
  simp only [handleOutcome, if_pos h, maybeRestart, if_pos hMem']
  refine ⟨by rw [hFrame', hFrame, hAnnounced], _, _, ?_, ?_, fun i => ?_, ?_, hAfter⟩
  · rw [advanceCircuit_phase, phase_announceOutcome]
  · rw [hTasks, tasks_announceOutcome]
  · rw [hLedger, ledger_announceOutcome, clock_eq hAnnounced]
    split_ifs <;> rfl
  · rw [hLedger, if_pos rfl]
    exact hOpen

end Supervisor

end ServiceKernel
