import ServiceKernel.Semantics.Execution
import ServiceKernel.Worker.Durable

/-! The supervisor's bookkeeping: at every point of its loop each account is
balanced, and the two counters agree with the events they count. -/
namespace ServiceKernel

open Execution

namespace Ledger

/-- Nothing has happened to the worker yet. -/
structure Fresh (l : Ledger) : Prop where
  counts : l.toCounts = .zero
  inFlight : l.inFlight = 0
  closed : ∀ b, l.breaker = some b → b.state = .closed

/-- Spawns are accounted for by their causes and by their outcomes, and the
breaker says whether a task may be in flight. -/
structure Balanced (l : Ledger) : Prop where
  single : l.inFlight ≤ 1
  outstanding : l.started = l.outcomes + l.inFlight
  spawns : l.started = 1 + l.restarted + l.halfOpened
  listed : l.spawned = l.started
  opened : ∀ b, l.breaker = some b → b.state = .opened → l.inFlight = 0
  halfOpen : ∀ b, l.breaker = some b → b.state = .halfOpen → l.inFlight = 1

/-- Between a handled outcome and the restart it leads to. -/
structure Resting (l : Ledger) : Prop extends l.Balanced where
  idle : l.inFlight = 0
  closed : ∀ b, l.breaker = some b → b.state = .closed

variable {l : Ledger}

theorem Fresh.spawn (h : l.Fresh) : l.spawn.Balanced := by
  have hCounts := h.counts
  simp only [Counts.zero, Counts.ext_iff] at hCounts
  have hIdle := h.inFlight
  refine ⟨?_, ?_, ?_, ?_, fun b hBreaker hState => ?_, fun b hBreaker hState => ?_⟩ <;>
    simp only [Ledger.spawn] at * <;> try omega
  rw [h.closed b hBreaker] at hState
  cases hState

theorem Resting.restart (h : l.Resting) : l.restart.Balanced := by
  have hIdle := h.idle
  have hOutstanding := h.outstanding
  have hSpawns := h.spawns
  have hListed := h.listed
  refine ⟨?_, ?_, ?_, ?_, fun b hBreaker hState => ?_, fun b hBreaker hState => ?_⟩ <;>
    simp only [Ledger.restart, Ledger.spawn] at * <;> try omega
  rw [h.closed b hBreaker] at hState
  cases hState

/-- Settling the task in flight leaves the worker idle, with a breaker that is not
half-open. -/
theorem Balanced.settle (h : l.Balanced) (hTask : 0 < l.inFlight) (hasFailed : Bool)
    (now : Instant) : (l.settle hasFailed now).Balanced ∧ (l.settle hasFailed now).inFlight = 0 ∧
      ∀ b, (l.settle hasFailed now).breaker = some b → b.state ≠ .halfOpen := by
  have hSingle := h.single
  have hOutstanding := h.outstanding
  have hSpawns := h.spawns
  have hListed := h.listed
  have hIdle : (l.settle hasFailed now).inFlight = 0 := by
    simp only [Ledger.settle, Ledger.advanceCircuit]
    omega
  have hMoved : ∀ b, (l.settle hasFailed now).breaker = some b → b.state ≠ .halfOpen := by
    intro b hBreaker
    obtain ⟨old, -, rfl⟩ := Option.map_eq_some_iff.mp hBreaker
    exact CircuitBreaker.record_ne_halfOpen
  refine ⟨⟨?_, ?_, ?_, hListed, fun _ _ _ => hIdle, fun b hBreaker hState => ?_⟩, hIdle, hMoved⟩
  · omega
  · simp only [Ledger.settle, Ledger.advanceCircuit] at hIdle ⊢
    omega
  · exact hSpawns
  · exact absurd hState (hMoved b hBreaker)

/-- A tick that does not half-open the breaker leaves the account as it is. -/
theorem Balanced.tickBreaker (h : l.Balanced) (now : Instant)
    (hKeep : ∀ b, l.breaker = some b → b.state = .opened → (b.tick now).state ≠ .halfOpen) :
    (l.tickBreaker now).Balanced := by
  have hSame : ∀ b, (l.tickBreaker now).breaker = some b → l.breaker = some b := by
    intro b hBreaker
    obtain ⟨old, hOld, rfl⟩ := Option.map_eq_some_iff.mp hBreaker
    by_cases hState : old.state = .opened
    · rcases CircuitBreaker.tick_cases now hState with hTick | ⟨t, -, -, hTick⟩
      · rw [hTick, hOld]
      · exact absurd (by rw [hTick]) (hKeep old hOld hState)
    · rw [CircuitBreaker.tick_of_ne_opened hState, hOld]
  exact ⟨h.single, h.outstanding, h.spawns, h.listed, fun b hBreaker => h.opened b (hSame b hBreaker),
    fun b hBreaker => h.halfOpen b (hSame b hBreaker)⟩

/-- A tick that half-opens the breaker starts its trial. -/
theorem Balanced.trial (h : l.Balanced) {now : Instant} {b : CircuitBreaker}
    (hBreaker : l.breaker = some b) (hOpen : b.state = .opened)
    (hTick : (b.tick now).state = .halfOpen) : (l.tickBreaker now).trial.Balanced := by
  have hIdle := h.opened b hBreaker hOpen
  have hOutstanding := h.outstanding
  have hSpawns := h.spawns
  have hListed := h.listed
  refine ⟨?_, ?_, ?_, ?_, fun c hMoved hState => ?_, fun _ _ _ => ?_⟩ <;>
    simp only [Ledger.trial, Ledger.tickBreaker, Ledger.spawn] at * <;> try omega
  rw [hBreaker, Option.map_some, Option.some.injEq] at hMoved
  rw [← hMoved, hTick] at hState
  cases hState

end Ledger

namespace SupervisorRecord

/-- The worker named by a `Failed` or `Panicked` event. -/
def failureOf : SupervisorRecord → Option String
  | .event (.failed _ name _) => some name
  | .event (.panicked _ name _) => some name
  | _ => none

def restartOf : SupervisorRecord → Option String
  | .event (.restarted _ name _) => some name
  | _ => none

/-- The label of one increment of the counter. -/
def countedBy (metric : Metric) : SupervisorRecord → Option String
  | .counter m name => if m = metric then some name else none
  | _ => none

end SupervisorRecord

namespace Supervisor

/-- Each counter was incremented once for each of its events, in the same order
and under the same worker's name. -/
def Metered (s : Supervisor) : Prop :=
  s.history.filterMap (·.countedBy .workersFailed) = s.history.filterMap (·.failureOf) ∧
  s.history.filterMap (·.countedBy .workersRestarted) = s.history.filterMap (·.restartOf)

variable {T : TaskIds} {s s' : Supervisor} {id : WorkerId} {label : SupervisorLabel}

theorem Metered.append (h : s.Metered) {records : List SupervisorRecord}
    (hHistory : s'.history = s.history ++ records)
    (hFailed : records.filterMap (·.countedBy .workersFailed) = records.filterMap (·.failureOf))
    (hRestarted : records.filterMap (·.countedBy .workersRestarted) =
      records.filterMap (·.restartOf)) : s'.Metered := by
  rw [Metered, hHistory]
  simp only [List.filterMap_append]
  exact ⟨congrArg₂ _ h.1 hFailed, congrArg₂ _ h.2 hRestarted⟩

theorem Metered.log (h : s.Metered) {record : SupervisorRecord} (hFailure : record.failureOf = none)
    (hRestart : record.restartOf = none) (hCounter : ∀ metric, record.countedBy metric = none) :
    (s.log record).Metered := by
  apply h.append rfl
  · rw [List.filterMap_cons_none (hCounter _), List.filterMap_cons_none hFailure]
    rfl
  · rw [List.filterMap_cons_none (hCounter _), List.filterMap_cons_none hRestart]
    rfl

theorem metered_durable : Durable T Metered where
  workers _ h := h
  log {_ record} hPlain h := by
    cases record with
    | event event => cases event <;> first | exact hPlain.elim | exact h.log rfl rfl fun _ => rfl
    | counter => exact hPlain.elim
    | _ => exact h.log rfl rfl fun _ => rfl
  tasks h := h
  control h := h
  spawn _ h := Metered.log h rfl rfl fun _ => rfl
  announce {s _ _ outcome} h := by
    cases outcome with
    | completed => exact h.append (List.append_assoc s.history _ _) rfl rfl
    | failed | panicked =>
        apply h.append
        · show s.history ++ _ ++ _ ++ _ = _
          rw [List.append_assoc, List.append_assoc]
        · rfl
        · rfl
  restart {s _ _ _} h := h.append (List.append_assoc s.history _ _) rfl rfl
  escalate h := escalate_keeps (fun {_ record} hRecord h => by
    cases record <;> first | exact hRecord.elim | exact h.log rfl rfl fun _ => rfl) h
  timeout h := by
    unfold reportTimeout
    simp only []
    split_ifs <;> exact Metered.log h rfl rfl fun _ => rfl
  stopping _ h := h
  heartbeat _ h := Metered.log h rfl rfl fun _ => rfl
  cancel h := Metered.log h rfl rfl fun _ => rfl
  cancelWorker _ h := Metered.log h rfl rfl fun _ => rfl

/-- What holds of the books in every reachable state. -/
structure Books (s : Supervisor) : Prop where
  nodup : s.ids.Nodup
  consistent : s.tasks.Consistent
  fresh : s.phase = .notStarted → s.tasks.Unaborted ∧ ∀ i ∈ s.ids, (s.ledger i).Fresh
  balanced : s.Supervising → s.tasks.Unaborted ∧ ∀ i ∈ s.ids, (s.ledger i).Balanced
  waiting : ∀ id name attempts due, s.phase = .backoff id name attempts due →
    id ∈ s.ids ∧ (s.ledger id).Resting

theorem books_new (roster : Roster) : Books (new roster) where
  nodup := roster.nodup
  consistent := .empty _
  fresh _ := by
    refine ⟨fun _ hMem => (by cases hMem), fun i _ => ⟨rfl, rfl, fun b hBreaker => ?_⟩⟩
    simp only [ledger, new, RegisteredWorker.register, Option.map_eq_some_iff] at hBreaker
    obtain ⟨policy, -, rfl⟩ := hBreaker
    rfl
  balanced h := h.elim
  waiting _ _ _ _ h := by cases h

/-- A step that leaves the accounts alone keeps the books, if it enters neither
the loop nor a wait from elsewhere. -/
theorem Books.of_same {s s' : Supervisor} (h : Books s) (hIds : s'.ids = s.ids)
    (hTasks : s'.tasks.Consistent) (hUnaborted : s.tasks.Unaborted → s'.tasks.Unaborted)
    (hLedger : ∀ i, s'.ledger i = s.ledger i)
    (hNew : s'.phase = .notStarted → s.phase = .notStarted)
    (hLoop : s'.Supervising → s.Supervising)
    (hWait : ∀ id name attempts due, s'.phase = .backoff id name attempts due →
      s.phase = .backoff id name attempts due) : Books s' where
  nodup := hIds ▸ h.nodup
  consistent := hTasks
  fresh hPhase := by
    obtain ⟨hLive, hFresh⟩ := h.fresh (hNew hPhase)
    exact ⟨hUnaborted hLive, fun i hMem => hLedger i ▸ hFresh i (hIds ▸ hMem)⟩
  balanced hPhase := by
    obtain ⟨hLive, hBalanced⟩ := h.balanced (hLoop hPhase)
    exact ⟨hUnaborted hLive, fun i hMem => hLedger i ▸ hBalanced i (hIds ▸ hMem)⟩
  waiting id name attempts due hPhase := by
    obtain ⟨hMem, hRest⟩ := h.waiting _ _ _ _ (hWait _ _ _ _ hPhase)
    exact ⟨hIds ▸ hMem, hLedger id ▸ hRest⟩

/-- What the environment does to tokens and heartbeat cells does not show in the books. -/
theorem Books.of_quiet {s s' : Supervisor} (h : Books s) (hIds : s'.ids = s.ids)
    (hTasks : s'.tasks = s.tasks) (hLedger : ∀ i, s'.ledger i = s.ledger i)
    (hPhase : s'.phase = s.phase) : Books s' := by
  refine h.of_same hIds (hTasks ▸ h.consistent) (fun hLive => hTasks ▸ hLive) hLedger
    (fun hNew => hPhase ▸ hNew) (fun hLoop => ?_) fun _ _ _ _ hWait => hPhase ▸ hWait
  rw [Supervising, hPhase] at hLoop
  exact hLoop

/-- Once the supervisor has left its loop the accounts are closed. -/
theorem Books.of_left {s s' : Supervisor} (h : Books s) (hIds : s'.ids = s.ids)
    (hTasks : s'.tasks.Consistent) (hNew : s'.phase ≠ .notStarted)
    (hLoop : ¬ s'.Supervising) : Books s' where
  nodup := hIds ▸ h.nodup
  consistent := hTasks
  fresh hPhase := absurd hPhase hNew
  balanced hPhase := absurd hPhase hLoop
  waiting _ _ _ _ hPhase := absurd (by rw [Supervising, hPhase]; trivial) hLoop

/-- Entering or staying in the loop with balanced accounts. -/
theorem Books.of_loop {s s' : Supervisor} (h : Books s) (hIds : s'.ids = s.ids)
    (hTasks : s'.tasks.Consistent) (hUnaborted : s'.tasks.Unaborted)
    (hLoop : s'.Supervising) (hLedger : ∀ i ∈ s.ids, (s'.ledger i).Balanced)
    (hWait : ∀ id name attempts due, s'.phase = .backoff id name attempts due →
      id ∈ s.ids ∧ (s'.ledger id).Resting) : Books s' where
  nodup := hIds ▸ h.nodup
  consistent := hTasks
  fresh hNew := by
    rw [Supervising, hNew] at hLoop
    exact hLoop.elim
  balanced _ := ⟨hUnaborted, fun i hMem => hLedger i (hIds ▸ hMem)⟩
  waiting id name attempts due hPhase := hIds ▸ hWait id name attempts due hPhase

theorem Books.of_head {s s' : Supervisor} (h : Books s) (hIds : s'.ids = s.ids)
    (hTasks : s'.tasks.Consistent) (hUnaborted : s'.tasks.Unaborted)
    (hPhase : s'.phase = .head) (hLedger : ∀ i ∈ s.ids, (s'.ledger i).Balanced) : Books s' := by
  apply h.of_loop hIds hTasks hUnaborted (by rw [Supervising, hPhase]; trivial) hLedger
  intro id name attempts due hWait
  rw [hPhase] at hWait
  cases hWait

theorem findTask_mem {run : Nat} {task : Task} (h : s.findTask run = some task) :
    task ∈ s.joinSet ∧ task.run = run :=
  ⟨List.mem_of_find?_eq_some h, by simpa using List.find?_some h⟩

/-- A task that has ended can be joined, as no other has its run. -/
theorem findTask_of_mem (hBooks : Books s) {task : Task} (hMem : task ∈ s.joinSet) :
    s.findTask task.run = some task := by
  cases hFind : s.findTask task.run with
  | none => simpa using List.find?_eq_none.mp hFind task hMem
  | some other =>
      obtain ⟨hOther, hRun⟩ := findTask_mem hFind
      rw [List.inj_on_of_nodup_map hBooks.consistent.numbered hOther hMem hRun]

theorem books_start (h : Books s) (hPhase : s.phase = .notStarted) :
    Books { s.ids.foldl (fun s id => s.spawnOne T id) s with phase := .head } := by
  obtain ⟨hLive, hFresh⟩ := h.fresh hPhase
  obtain ⟨⟨hFrame, hConsistent, hLive'⟩, hLedger⟩ :=
    spawnAll_spec (T := T) h.nodup h.consistent hLive
  refine h.of_head (congrArg Frame.ids hFrame) hConsistent hLive' rfl fun i hMem => ?_
  have hSpawned := hLedger i
  rw [if_pos hMem] at hSpawned
  exact hSpawned ▸ (hFresh i hMem).spawn

theorem books_tick (h : Books s) (hLoop : s.Supervising) (wall : Option Nat)
    (nows : WorkerId → Instant) (after : Instant) :
    Books { s.watchdogTick T wall nows with phase := .head, clock := after } := by
  obtain ⟨hLive, hBalanced⟩ := h.balanced hLoop
  obtain ⟨⟨hFrame, hConsistent, hLive'⟩, hLedger⟩ := watchdogTick_spec (T := T) wall nows h.nodup
    h.consistent hLive fun i hMem => (hBalanced i hMem).opened
  refine h.of_head (congrArg Frame.ids hFrame) hConsistent hLive' rfl fun i hMem => ?_
  have hTicked := hLedger i hMem
  split_ifs at hTicked with hTrial
  · obtain ⟨-, b, hBreaker, hOpen, hHalf⟩ := mem_closedToHalfOpen.mp hTrial
    exact hTicked ▸ (hBalanced i hMem).trial hBreaker hOpen hHalf
  · apply hTicked ▸ (hBalanced i hMem).tickBreaker (nows i)
    intro b hBreaker hOpen hHalf
    exact hTrial (mem_closedToHalfOpen.mpr ⟨hMem, b, hBreaker, hOpen, hHalf⟩)

theorem books_restartNow (h : Books s) {name : String} {attempts : UInt32} {due now : Instant}
    (hPhase : s.phase = .backoff id name attempts due) :
    Books ({ s with clock := now }.restartNow T id name attempts) := by
  obtain ⟨hMem, hRest⟩ := h.waiting _ _ _ _ hPhase
  obtain ⟨hLive, hBalanced⟩ := h.balanced (by rw [Supervising, hPhase]; trivial)
  have hMem' : id ∈ { s with clock := now }.ids := hMem
  obtain ⟨hFrame, hHead, hTasks, hLedger⟩ := restartNow_spec (T := T) hMem' name attempts
  refine h.of_head (congrArg Frame.ids hFrame) (hTasks ▸ h.consistent.spawn hMem) (hTasks ▸ hLive.spawn) hHead
    fun i hIn => ?_
  rw [hLedger]
  split_ifs with hSame
  · rw [hSame]
    exact hRest.restart
  · exact hBalanced i hIn

/-- A joined task is settled and its worker rests, or runs again. -/
theorem books_joined (h : Books s) (hPhase : s.phase = .head) {task : Task}
    (hMem : task ∈ s.joinSet) {result : JoinResult} (hResult : task.result = some result)
    (wall : Option Nat) (now : Instant) :
    Books ({ s with clock := now }.joined T task result wall) := by
  obtain ⟨hLive, hBalanced⟩ := h.balanced (by rw [Supervising, hPhase]; trivial)
  obtain ⟨outcome, hOutcome⟩ := hLive.outcome hMem hResult
  obtain ⟨hFrame, mid, circuitOpen, hMidPhase, hMidTasks, hSettled, hOpen, hAfter⟩ :=
    joined_spec (T := T) h.consistent hMem hResult hOutcome wall now
  have hOwner : task.worker ∈ s.ids := h.consistent.known task hMem
  have hPos : 0 < (s.ledger task.worker).inFlight :=
    List.countP_pos_iff.mpr ⟨task, hMem, by simp⟩
  obtain ⟨hIdle, hNone, hNotHalf⟩ := (hBalanced _ hOwner).settle hPos outcome.hasFailed now
  have hMid : ∀ i ∈ s.ids, (mid.ledger i).Balanced := by
    intro i hIn
    rw [hSettled]
    split_ifs with hSame
    · exact hSame ▸ hIdle
    · exact hBalanced i hIn
  have hRest : circuitOpen = false → (mid.ledger task.worker).Resting := by
    intro hClosed
    refine ⟨hMid _ hOwner, ?_, fun b hBreaker => ?_⟩
    · rw [hSettled, if_pos rfl, hNone]
    · cases hState : b.state with
      | closed => rfl
      | opened =>
          rw [hClosed] at hOpen
          exact absurd (hOpen.mpr ⟨b, hBreaker, hState⟩) (by decide)
      | halfOpen =>
          rw [hSettled, if_pos rfl] at hBreaker
          exact absurd hState (hNotHalf b hBreaker)
  have hIds := congrArg Frame.ids hFrame
  have hConsistent : mid.tasks.Consistent := hMidTasks ▸ h.consistent.remove
  have hLive' : mid.tasks.Unaborted := hMidTasks ▸ hLive.remove
  cases hAfter with
  | retired hPhase' hTasks hLedger =>
      refine h.of_head hIds (hTasks ▸ hConsistent) (hTasks ▸ hLive')
        (hPhase'.trans (hMidPhase.trans hPhase)) fun i hIn => ?_
      rw [hLedger]
      exact hMid i hIn
  | waiting hClosed hPhase' hTasks hLedger =>
      refine h.of_loop hIds (hTasks ▸ hConsistent) (hTasks ▸ hLive')
        (by rw [Supervising, hPhase']; trivial) (fun i hIn => ?_) fun id name attempts due hWait => ?_
      · rw [hLedger]
        exact hMid i hIn
      · rw [hPhase', SupervisorPhase.backoff.injEq] at hWait
        rw [hLedger, ← hWait.1]
        exact ⟨hOwner, hRest hClosed⟩
  | restarted hClosed hPhase' hTasks hLedger =>
      have hMidOwner : task.worker ∈ mid.tasks.ids := hMidTasks ▸ hOwner
      refine h.of_head hIds (hTasks ▸ hConsistent.spawn hMidOwner) (hTasks ▸ hLive'.spawn)
        hPhase' fun i hIn => ?_
      rw [hLedger]
      split_ifs with hSame
      · rw [hSame]
        exact (hRest hClosed).restart
      · exact hMid i hIn

theorem books_finish (h : Books s) {run : Nat} {ending : RunEnd} :
    Books (s.endTask run fun t => (s.worker t.worker).runner.run t.worker ending) := by
  refine h.of_same rfl ?_ (fun hLive => ?_) (fun i => ?_) (fun hNew => hNew)
    (fun hLoop => hLoop) fun _ _ _ _ hWait => hWait
  · exact h.consistent.endTask fun task worker outcome hResult => WorkerRunner.run_owner hResult
  · apply hLive.endTask
    intro task hResult
    obtain ⟨outcome, hOutcome⟩ :=
      (s.worker task.worker).runner.run_outcome task.worker ending
    rw [hResult] at hOutcome
    cases hOutcome
  · exact Ledger.ext rfl rfl rfl rfl rfl (TaskTable.endTask_inFlight (t := s.tasks)) rfl

/-- The loops of `shutdown_all` do not touch the tasks. -/
theorem closing_spec {f : Supervisor → WorkerId → Supervisor}
    (hPass : ∀ st id, (f st id).frame = st.frame ∧ (f st id).tasks = st.tasks) :
    (s.ids.foldl f s).frame = s.frame ∧ (s.ids.foldl f s).tasks = s.tasks :=
  foldl_keeps (fun st : Supervisor => st.frame = s.frame ∧ st.tasks = s.tasks) ⟨rfl, rfl⟩
    fun st id _ hSt => ⟨(hPass st id).1.trans hSt.1, (hPass st id).2.trans hSt.2⟩

theorem Supervising.of_phase {phase : SupervisorPhase} (hPhase : s.phase = phase)
    (h : phase = .head ∨ phase = .idle ∨ ∃ id name attempts due,
      phase = .backoff id name attempts due) : s.Supervising := by
  rcases h with rfl | rfl | ⟨_, _, _, _, rfl⟩ <;> (rw [Supervising, hPhase]; trivial)

/-- Every step keeps the books. -/
theorem books_step {label : SupervisorLabel} {s' : Supervisor} (h : Books s)
    (hStep : SupervisorStep T s label s') : Books s' := by
  cases takes_of_step hStep with
  | start hPhase => exact books_start h hPhase
  | tick hPhase hNows hClock =>
      refine books_tick h ?_ _ _ _
      rcases hPhase with ⟨hPhase, -⟩ | hPhase
      · exact .of_phase hPhase (Or.inl rfl)
      · exact .of_phase hPhase (Or.inr (Or.inl rfl))
  | join hPhase hRunning hClock hTask hResult =>
      exact books_joined h hPhase (findTask_mem hTask).1 hResult _ _
  | joinNone hPhase hEmpty =>
      exact h.of_same rfl h.consistent (fun hLive => hLive) (fun _ => rfl)
        (fun hNew => by cases hNew) (fun _ => .of_phase hPhase (Or.inl rfl))
        fun _ _ _ _ hWait => by cases hWait
  | backoffElapsed hPhase hDue hClock => exact books_restartNow h hPhase
  | backoffCancelled hPhase hCancelled =>
      exact h.of_same rfl h.consistent (fun hLive => hLive) (fun _ => rfl)
        (fun hNew => by cases hNew)
        (fun _ => .of_phase hPhase (Or.inr (Or.inr ⟨_, _, _, _, rfl⟩)))
        fun _ _ _ _ hWait => by cases hWait
  | cancelObserved hPhase hCancelled hClock =>
      obtain ⟨hFrame, hTasks⟩ := closing_spec (s := s) (f := stopWorker)
        fun st key => ⟨by simp [stopWorker], by simp [stopWorker]⟩
      exact h.of_left (congrArg Frame.ids hFrame) (hTasks ▸ h.consistent) (by simp)
        (fun hLoop => hLoop)
  | drain hPhase hTask hResult =>
      exact h.of_left rfl h.consistent.remove (by simp) (fun hLoop => hLoop)
  | drainAborting hPhase hTask hResult =>
      exact h.of_left rfl h.consistent.remove (by simp) (fun hLoop => hLoop)
  | graceExpired hPhase hDue hClock =>
      exact h.of_left rfl h.consistent (by simp) (fun hLoop => hLoop)
  | drained hPhase hEmpty =>
      obtain ⟨hFrame, hTasks⟩ := closing_spec (s := s) (f := markStopped)
        fun st key => ⟨by simp [markStopped], by simp [markStopped]⟩
      exact h.of_left (congrArg Frame.ids hFrame) (hTasks ▸ h.consistent) (by simp)
        (fun hLoop => hLoop)
  | finish hTask hRunning => exact books_finish h
  | abort hPhase hTask hRunning =>
      refine h.of_left rfl ?_ (fun hNew => ?_) fun hLoop => ?_
      · exact h.consistent.endTask fun _ _ _ hResult => by cases hResult
      · cases hPhase.symm.trans hNew
      · have hOld : s.Supervising := hLoop
        rw [Supervising, hPhase] at hOld
        exact hOld
  | heartbeat hContext =>
      exact h.of_quiet rfl rfl (fun i => (ledger_log _).trans (ledger_modifyWorker rfl)) rfl
  | cancel =>
      exact h.of_quiet rfl rfl (fun i => ledger_log _) rfl
  | cancelWorker hMem =>
      exact h.of_quiet rfl rfl (fun i => (ledger_log _).trans ledger_cancelWorkerToken) rfl

/-- What no step changes: who is registered and how; the clock only advances. -/
structure Steady (s s' : Supervisor) : Prop where
  ids : s'.ids = s.ids
  spec : ∀ i, (s'.worker i).spec = (s.worker i).spec
  handleId : ∀ i, (s'.worker i).handle.id = (s.worker i).handle.id
  clock : s.clock ≤ s'.clock

theorem Steady.of_frame {now : Instant} (h : s'.frame = { s with clock := now }.frame)
    (hClock : s.clock ≤ now) : Steady s s' where
  ids := congrArg Frame.ids h
  spec := congrFun (congrArg Frame.spec h)
  handleId := congrFun (congrArg Frame.handleId h)
  clock := Nat.le_trans hClock (Nat.le_of_eq (congrArg Frame.clock h).symm)

theorem Steady.of_same (h : s'.frame = s.frame) : Steady s s' := .of_frame h (Nat.le_refl _)

theorem Steady.advance (h : Steady s s') {now : Instant} (hClock : s.clock ≤ now)
    (phase : SupervisorPhase) : Steady s { s' with clock := now, phase := phase } :=
  ⟨h.ids, h.spec, h.handleId, hClock⟩

theorem Steady.enter (h : Steady s s') (phase : SupervisorPhase) :
    Steady s { s' with phase := phase } :=
  ⟨h.ids, h.spec, h.handleId, h.clock⟩

theorem Steady.closing {f : Supervisor → WorkerId → Supervisor}
    (hPass : ∀ st id, (f st id).frame = st.frame) : Steady s (s.ids.foldl f s) :=
  .of_same (foldl_keeps (fun st : Supervisor => st.frame = s.frame) rfl
    fun st key _ hSt => (hPass st key).trans hSt)

theorem steady_step (h : Books s) (hStep : SupervisorStep T s label s') : Steady s s' := by
  cases takes_of_step hStep with
  | start hPhase =>
      exact (Steady.closing fun st key => frame_spawnOne).enter .head
  | tick hPhase hNows hClock =>
      have hLoop : s.Supervising := by
        rcases hPhase with ⟨hPhase, -⟩ | hPhase
        · exact .of_phase hPhase (Or.inl rfl)
        · exact .of_phase hPhase (Or.inr (Or.inl rfl))
      obtain ⟨hLive, hBalanced⟩ := h.balanced hLoop
      exact (Steady.of_same (watchdogTick_spec _ _ h.nodup h.consistent hLive
        fun i hIn => (hBalanced i hIn).opened).1.1).advance hClock .head
  | join hPhase hRunning hClock hTask hResult =>
      have hMem := (findTask_mem hTask).1
      obtain ⟨outcome, hOutcome⟩ :=
        (h.balanced (.of_phase hPhase (Or.inl rfl))).1.outcome hMem hResult
      exact .of_frame (joined_spec h.consistent hMem hResult hOutcome _ _).1 hClock
  | @backoffElapsed worker name attempts due now hPhase hDue hClock =>
      exact .of_frame (restartNow_spec (s := { s with clock := now })
        (h.waiting _ _ _ _ hPhase).1 name attempts).1 hClock
  | cancelObserved hPhase hCancelled hClock =>
      exact (Steady.closing fun st key => by simp [stopWorker]).advance hClock _
  | graceExpired hPhase hDue hClock =>
      exact (Steady.of_same rfl).advance hClock _
  | drained hPhase hEmpty =>
      exact (Steady.closing fun st key => by simp [markStopped]).enter _
  | heartbeat hContext =>
      exact .of_same ((frame_log _).trans (frame_modifyWorker rfl rfl))
  | cancelWorker hMem => exact .of_same ((frame_log _).trans frame_cancelWorkerToken)
  | _ => exact ⟨rfl, fun _ => rfl, fun _ => rfl, Nat.le_refl _⟩

/-- Whoever holds the token cancels it; the supervisor itself does not. -/
theorem cancelled_step (h : Books s) (hStep : SupervisorStep T s label s') (hLabel : label ≠ .cancel) :
    s'.cancelled = s.cancelled := by
  have hClosing : ∀ f : Supervisor → WorkerId → Supervisor, (∀ st id, (f st id).frame = st.frame) →
      (s.ids.foldl f s).cancelled = s.cancelled := fun f hPass =>
    congrArg Frame.cancelled (foldl_keeps (fun st : Supervisor => st.frame = s.frame) rfl
      fun st key _ hSt => (hPass st key).trans hSt)
  cases takes_of_step hStep with
  | start hPhase => exact hClosing _ fun st key => frame_spawnOne
  | tick hPhase hNows hClock =>
      have hLoop : s.Supervising := by
        rcases hPhase with ⟨hPhase, -⟩ | hPhase
        · exact .of_phase hPhase (Or.inl rfl)
        · exact .of_phase hPhase (Or.inr (Or.inl rfl))
      obtain ⟨hLive, hBalanced⟩ := h.balanced hLoop
      exact congrArg Frame.cancelled (watchdogTick_spec _ _ h.nodup h.consistent hLive
        fun i hIn => (hBalanced i hIn).opened).1.1
  | join hPhase hRunning hClock hTask hResult =>
      have hMem := (findTask_mem hTask).1
      obtain ⟨outcome, hOutcome⟩ :=
        (h.balanced (.of_phase hPhase (Or.inl rfl))).1.outcome hMem hResult
      exact congrArg Frame.cancelled (joined_spec h.consistent hMem hResult hOutcome _ _).1
  | @backoffElapsed worker name attempts due now hPhase hDue hClock =>
      exact congrArg Frame.cancelled (restartNow_spec (s := { s with clock := now })
        (h.waiting _ _ _ _ hPhase).1 name attempts).1
  | cancelObserved => exact hClosing stopWorker fun st key => by simp [stopWorker]
  | drained => exact hClosing markStopped fun st key => by simp [markStopped]
  | cancel => exact absurd rfl hLabel
  | _ => rfl

theorem books_of_reachable {roster : Roster} (reach : Reachable (SupervisorStep T) (new roster) s) :
    Books s :=
  reach.invariant Books (books_new roster) fun _ _ _ => books_step

/-- The workers that were registered before the run are supervised as they were registered. -/
theorem registered_of_reachable {roster : Roster}
    (reach : Reachable (SupervisorStep T) (new roster) s) :
    s.ids = roster.ids ∧ ∀ i, (s.worker i).spec = roster.spec i := by
  refine (reach.invariant (fun s => Books s ∧ s.ids = roster.ids ∧
    ∀ i, (s.worker i).spec = roster.spec i) ⟨books_new roster, rfl, fun _ => rfl⟩ ?_).2
  intro s label s' h hStep
  have hSteady := steady_step h.1 hStep
  refine ⟨books_step h.1 hStep, hSteady.ids.trans h.2.1, fun i => ?_⟩
  exact (hSteady.spec i).trans (h.2.2 i)

/-- The books as an auditor of the loop reads them. -/
structure Reconciled (s : Supervisor) : Prop where
  single : ∀ id ∈ s.ids, s.tasks.inFlight id ≤ 1
  distinct : (s.joinSet.map Task.id).Nodup
  mapped : ∀ taskId worker, s.taskToWorker.lookup taskId = some worker ↔
    ∃ task ∈ s.joinSet, task.id = taskId ∧ task.worker = worker
  outstanding : ∀ id ∈ s.ids, (Counts.ofHistory id s.history).started =
    (Counts.ofHistory id s.history).outcomes + s.tasks.inFlight id
  spawns : ∀ id ∈ s.ids, (Counts.ofHistory id s.history).started =
    1 + (Counts.ofHistory id s.history).restarted + (Counts.ofHistory id s.history).halfOpened
  metered : s.Metered

end Supervisor

/-- At every head of the loop, whatever outcomes, ticks and clock readings led
there, the books are reconciled. -/
theorem supervisor_reconciled (T : TaskIds) (roster : Roster) (s : Supervisor)
    (reach : Reachable (SupervisorStep T) (.new roster) s) (hHead : s.phase = .head) :
    s.Reconciled := by
  have hBooks := Supervisor.books_of_reachable reach
  have hBalanced := (hBooks.balanced (by rw [Supervisor.Supervising, hHead]; trivial)).2
  exact
    { single := fun id hMem => (hBalanced id hMem).single
      distinct := hBooks.consistent.distinct
      mapped := hBooks.consistent.mapped
      outstanding := fun id hMem => (hBalanced id hMem).outstanding
      spawns := fun id hMem => (hBalanced id hMem).spawns
      metered := reach.invariant Supervisor.Metered ⟨rfl, rfl⟩ fun _ _ _ h hStep =>
        Supervisor.metered_durable.step h hStep }

/-- A worker whose breaker opens at its first failure. -/
def WorkerSpec.brittle : WorkerSpec :=
  { WorkerSpec.new "alpha" with circuit := some ⟨1, .fromSecs 60, .fromSecs 30⟩ }

theorem firstIds_nodup : ([1, 2] : List WorkerId).Nodup := by decide

/-- A worker that restarts at once, next to a brittle one. -/
def Roster.mixed : Roster :=
  ⟨[1, 2], firstIds_nodup, fun id => if id = 1 then .watched else .brittle, fun _ => .sync⟩

/-- Both workers fail, and the breaker of the second is due for a trial. -/
def restartAndTrial : List SupervisorLabel :=
  [.start, .finish 0 (.err ⟨"disk full"⟩), .join 0 (some 5) 7, .finish 1 (.err ⟨"disk full"⟩),
    .join 1 (some 6) 8, .tick (some 9) (fun _ => 30000000008) 30000000008]

/-- One worker is in its second run after a restart, the other in the trial of its breaker. -/
theorem supervisor_reconciled_trial : ∃ s : Supervisor, s.phase = .head ∧
    Counts.ofHistory 1 s.history = ⟨2, 2, 1, 1, 0⟩ ∧ Counts.ofHistory 2 s.history = ⟨2, 2, 1, 0, 1⟩ ∧
    (s.worker 2).circuit.map CircuitBreaker.state = some .halfOpen ∧ s.Reconciled := by
  obtain ⟨s, hRun, hHead, hFirst, hSecond, hHalf⟩ : ∃ s : Supervisor,
      replay (Supervisor.exec .counting) (.new .mixed) restartAndTrial = some s ∧
      s.phase = .head ∧ Counts.ofHistory 1 s.history = ⟨2, 2, 1, 1, 0⟩ ∧
      Counts.ofHistory 2 s.history = ⟨2, 2, 1, 0, 1⟩ ∧
      (s.worker 2).circuit.map CircuitBreaker.state = some .halfOpen := ⟨_, rfl, rfl, rfl, rfl, rfl⟩
  exact ⟨s, hHead, hFirst, hSecond, hHalf,
    supervisor_reconciled .counting .mixed s (runs_of_replay hRun).reachable hHead⟩

end ServiceKernel
