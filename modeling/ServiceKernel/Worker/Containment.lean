import ServiceKernel.Worker.Bookkeeping

/-! Circuit containment: an open breaker keeps its worker idle until a tick finds
the open duration over, and the trial that follows decides what the breaker
becomes. -/
namespace ServiceKernel

open Execution

namespace Supervisor

variable {T : TaskIds} {s s' : Supervisor} {id i : WorkerId} {label : SupervisorLabel}

/-- What a step does to one worker's breaker, and whether it spawns the worker. -/
inductive BreakerStep (s : Supervisor) (id : WorkerId) (s' : Supervisor) : SupervisorLabel → Prop where
  | kept {label : SupervisorLabel} (hBreaker : (s'.ledger id).breaker = (s.ledger id).breaker)
      (hSpawned : (s'.ledger id).spawned = (s.ledger id).spawned) : BreakerStep s id s' label
  | spawned {label : SupervisorLabel} (hBreaker : (s'.ledger id).breaker = (s.ledger id).breaker)
      (hClosed : ∀ b, (s.ledger id).breaker = some b → b.state = .closed) :
      BreakerStep s id s' label
  | halfOpened {wall : Option Nat} {nows : WorkerId → Instant} {after since : Instant}
      {b : CircuitBreaker} (hOld : (s.ledger id).breaker = some b) (hOpen : b.state = .opened)
      (hSince : b.openedAt = some since) (hDue : b.policy.openDuration.nanos ≤ nows id - since)
      (hClock : s.clock ≤ nows id)
      (hNew : (s'.ledger id).breaker = some { b with state := .halfOpen }) :
      BreakerStep s id s' (.tick wall nows after)
  | settled {run : Nat} {wall : Option Nat} {now : Instant} {task : Task} {result : JoinResult}
      {outcome : SupervisorOutcome} (hPhase : s.phase = .head)
      (hTask : s.findTask run = some task)
      (hResult : task.result = some result) (hOutcome : result.outcome = some outcome)
      (hOwner : task.worker = id) (hClock : s'.clock = now)
      (hBreaker : (s'.ledger id).breaker =
        (s.ledger id).breaker.map (·.record outcome.hasFailed now)) :
      BreakerStep s id s' (.join run wall now)

theorem breakerStep_tick (h : Books s) (hLoop : s.Supervising) (hMem : id ∈ s.ids)
    (wall : Option Nat) {nows : WorkerId → Instant} (after : Instant) (hClock : s.clock ≤ nows id) :
    BreakerStep s id { s.watchdogTick T wall nows with phase := .head, clock := after }
      (.tick wall nows after) := by
  obtain ⟨hLive, hBalanced⟩ := h.balanced hLoop
  have hLedger := (watchdogTick_spec (T := T) wall nows h.nodup h.consistent hLive
    fun i hIn => (hBalanced i hIn).opened).2 id hMem
  split_ifs at hLedger with hTrial
  · obtain ⟨-, b, hOld, hOpen, hHalf⟩ := mem_closedToHalfOpen.mp hTrial
    have hNew := congrArg Ledger.breaker hLedger
    rcases CircuitBreaker.tick_cases (nows id) hOpen with hTick | ⟨since, hSince, hDue, hTick⟩
    · rw [hTick, hOpen] at hHalf
      cases hHalf
    · refine .halfOpened hOld hOpen hSince hDue hClock (hNew.trans ?_)
      simp [Ledger.trial, Ledger.spawn, Ledger.tickBreaker, ledger, hOld, hTick]
  · refine .kept ((congrArg Ledger.breaker hLedger).trans ?_)
      (congrArg (fun l => l.spawned) hLedger)
    simp only [Ledger.tickBreaker]
    cases hOld : (s.ledger id).breaker with
    | none => rfl
    | some b =>
        rw [Option.map_some, Option.some.injEq]
        by_cases hOpen : b.state = .opened
        · rcases CircuitBreaker.tick_cases (nows id) hOpen with hTick | ⟨_, _, _, hTick⟩
          · exact hTick
          · exact absurd (mem_closedToHalfOpen.mpr ⟨hMem, b, hOld, hOpen, by rw [hTick]⟩) hTrial
        · exact CircuitBreaker.tick_of_ne_opened hOpen

theorem breakerStep_join (h : Books s) (hPhase : s.phase = .head) {run : Nat} {task : Task}
    (hTask : s.findTask run = some task) {result : JoinResult} (hResult : task.result = some result)
    (wall : Option Nat) (now : Instant) :
    BreakerStep s id ({ s with clock := now }.joined T task result wall) (.join run wall now) := by
  have hMem := (findTask_mem hTask).1
  obtain ⟨hLive, -⟩ := h.balanced (by rw [Supervising, hPhase]; trivial)
  obtain ⟨outcome, hOutcome⟩ := hLive.outcome hMem hResult
  obtain ⟨hFrame, mid, circuitOpen, -, -, hSettled, -, hAfter⟩ :=
    joined_spec (T := T) h.consistent hMem hResult hOutcome wall now
  rcases eq_or_ne id task.worker with rfl | hne
  · refine .settled hPhase hTask hResult hOutcome rfl (congrArg Frame.clock hFrame) ?_
    rw [hAfter.breaker, hSettled, if_pos rfl]
    rfl
  · have hSame := hAfter.other hne
    rw [hSettled, if_neg hne] at hSame
    exact .kept (congrArg Ledger.breaker hSame) (congrArg (fun l => l.spawned) hSame)

theorem BreakerStep.of_same (h : s'.ledger id = s.ledger id) : BreakerStep s id s' label :=
  .kept (congrArg Ledger.breaker h) (congrArg (fun l => l.spawned) h)

theorem ledger_closing {f : Supervisor → WorkerId → Supervisor}
    (hPass : ∀ st id, (f st id).ledger i = st.ledger i) :
    (s.ids.foldl f s).ledger i = s.ledger i :=
  foldl_keeps (fun st : Supervisor => st.ledger i = s.ledger i) rfl
    fun st id _ hSt => (hPass st id).trans hSt

/-- Every step is one of the four as far as one worker's breaker is concerned. -/
theorem breakerStep (h : Books s) (hMem : id ∈ s.ids) (hStep : SupervisorStep T s label s') :
    BreakerStep s id s' label := by
  cases takes_of_step hStep with
  | start hPhase =>
      obtain ⟨hLive, hFresh⟩ := h.fresh hPhase
      have hLedger := (spawnAll_spec (T := T) h.nodup h.consistent hLive).2 id
      rw [if_pos hMem] at hLedger
      exact .spawned ((congrArg Ledger.breaker hLedger).trans rfl) (hFresh id hMem).closed
  | tick hPhase hNows hClock =>
      refine breakerStep_tick h ?_ hMem _ _ (hNows id hMem).1
      rcases hPhase with ⟨hPhase, -⟩ | hPhase
      · exact .of_phase hPhase (Or.inl rfl)
      · exact .of_phase hPhase (Or.inr (Or.inl rfl))
  | join hPhase hRunning hClock hTask hResult => exact breakerStep_join h hPhase hTask hResult _ _
  | @backoffElapsed worker name attempts due now hPhase hDue hClock =>
      obtain ⟨hWorker, hRest⟩ := h.waiting _ _ _ _ hPhase
      have hLedger :=
        (restartNow_spec (T := T) (s := { s with clock := now }) hWorker name attempts).2.2.2 id
      split_ifs at hLedger with hSame
      · exact .spawned ((congrArg Ledger.breaker hLedger).trans rfl) (hSame ▸ hRest.closed)
      · exact .of_same hLedger
  | cancelObserved hPhase hCancelled hClock =>
      exact .of_same (ledger_closing fun st key => by
        simp [stopWorker, Ledger.post, Counts.post])
  | drained hPhase hEmpty =>
      exact .of_same (ledger_closing fun st key => by
        simp [markStopped, Ledger.post, Counts.post])
  | heartbeat hContext => exact .of_same ((ledger_log _).trans (ledger_modifyWorker rfl))
  | cancel => exact .of_same (ledger_log _)
  | cancelWorker hMem => exact .of_same ((ledger_log _).trans ledger_cancelWorkerToken)
  | _ => exact .kept rfl rfl

/-- An open breaker carries the time it opened. -/
def Stamped (s : Supervisor) : Prop :=
  ∀ id ∈ s.ids, ∀ b, (s.worker id).circuit = some b → b.state = .opened →
    ∃ since, b.openedAt = some since ∧ since ≤ s.clock

/-- A breaker that a step opens is stamped with the reading of that step; one that
was open before and still is has not changed. -/
theorem BreakerStep.opened (h : BreakerStep s id s' label) {b' : CircuitBreaker}
    (hNew : (s'.worker id).circuit = some b') (hOpen : b'.state = .opened) :
    ∃ b, (s.worker id).circuit = some b ∧
      (b' = b ∨ b.state ≠ .opened ∧ b'.openedAt = some s'.clock) := by
  cases h with
  | kept hBreaker => exact ⟨b', hBreaker.symm.trans hNew, Or.inl rfl⟩
  | spawned hBreaker => exact ⟨b', hBreaker.symm.trans hNew, Or.inl rfl⟩
  | halfOpened hOld hWas hSince hDue hClock hHalf =>
      obtain rfl := Option.some.inj (hHalf.symm.trans hNew)
      cases hOpen
  | @settled _ _ _ _ _ outcome hPhase hTask hResult hOutcome hOwner hClock hBreaker =>
      obtain ⟨b, hOld, rfl⟩ := Option.map_eq_some_iff.mp (hBreaker.symm.trans hNew)
      refine ⟨b, hOld, ?_⟩
      cases hFailed : outcome.hasFailed with
      | false =>
          rw [hFailed] at hOpen
          cases hOpen
      | true =>
          rw [hFailed] at hOpen
          by_cases hWas : b.state = .opened
          · exact Or.inl (CircuitBreaker.recordFailure_of_opened hWas)
          · rw [hClock]
            exact Or.inr ⟨hWas, CircuitBreaker.recordFailure_openedAt hWas hOpen⟩

theorem stamped_step (h : Books s) (hOld : s.Stamped) (hStep : SupervisorStep T s label s') : s'.Stamped := by
  intro id hMem b' hNew hOpen
  have hSteady := steady_step h hStep
  rw [hSteady.ids] at hMem
  obtain ⟨b, hBefore, hSame | ⟨-, hStamp⟩⟩ := (breakerStep h hMem hStep).opened hNew hOpen
  · rw [hSame] at hOpen ⊢
    obtain ⟨since, hSince, hLe⟩ := hOld id hMem b hBefore hOpen
    exact ⟨since, hSince, Nat.le_trans hLe hSteady.clock⟩
  · exact ⟨s'.clock, hStamp, Nat.le_refl _⟩

end Supervisor

/-- A tick that reads the clock for this worker no earlier than `due`. -/
def SupervisorLabel.TickAt (id : WorkerId) (due : Instant) : SupervisorLabel → Prop
  | .tick _ nows _ => due ≤ nows id
  | _ => False

namespace Supervisor

variable {T : TaskIds} {s s' : Supervisor} {id : WorkerId} {labels : List SupervisorLabel}

/-- Without a due tick an open breaker stays as it is, whatever else happens, and
its worker is not spawned. -/
theorem open_of_run {b : CircuitBreaker} {since : Instant} (h : Books s) (hMem : id ∈ s.ids)
    (hBreaker : (s.worker id).circuit = some b) (hOpen : b.state = .opened)
    (hSince : b.openedAt = some since) (hPast : since ≤ s.clock)
    (run : Runs (SupervisorStep T) s labels s')
    (hEarly : ∀ label ∈ labels, ¬ label.TickAt id (since + b.policy.openDuration.nanos)) :
    (s'.worker id).circuit = some b ∧ (s'.ledger id).spawned = (s.ledger id).spawned := by
  suffices Books s' ∧ id ∈ s'.ids ∧ s.clock ≤ s'.clock ∧ (s'.worker id).circuit = some b ∧
      (s'.ledger id).spawned = (s.ledger id).spawned from this.2.2.2
  induction run with
  | zero => exact ⟨h, hMem, Nat.le_refl _, hBreaker, rfl⟩
  | @succ middle finish labels label prior last ih =>
      obtain ⟨hBooks, hIn, hClock, hStill, hSpawned⟩ :=
        ih fun l hL => hEarly l (List.mem_append_left _ hL)
      have hSteady := steady_step hBooks last
      refine ⟨books_step hBooks last, hSteady.ids ▸ hIn, Nat.le_trans hClock hSteady.clock, ?_⟩
      cases breakerStep hBooks hIn last with
      | kept hSame hNone => exact ⟨hSame.trans hStill, hNone.trans hSpawned⟩
      | spawned hSame hClosed =>
          rw [hClosed b hStill] at hOpen
          cases hOpen
      | @halfOpened wall nows after since' b' hOld hWas hSince' hDue hReading hNew =>
          obtain rfl := Option.some.inj (hStill.symm.trans hOld)
          obtain rfl := Option.some.inj (hSince.symm.trans hSince')
          have hLater : since ≤ nows id := Nat.le_trans hPast (Nat.le_trans hClock hReading)
          have hLast : SupervisorLabel.tick wall nows after ∈ labels ++ [.tick wall nows after] :=
            List.mem_append_right _ (List.mem_singleton_self _)
          exact absurd ((Nat.le_sub_iff_add_le' hLater).mp hDue) (hEarly _ hLast)
      | @settled _ _ _ task _ _ hPhase hTask _ _ hOwner =>
          -- an open breaker has no task whose outcome could reach it
          have hBalanced := (hBooks.balanced (.of_phase hPhase (Or.inl rfl))).2 id hIn
          have hIdle := hBalanced.opened b hStill hOpen
          have hBusy : 0 < middle.tasks.inFlight id :=
            List.countP_pos_iff.mpr ⟨task, (findTask_mem hTask).1, by simpa using hOwner⟩
          exact absurd hIdle (Nat.pos_iff_ne_zero.mp hBusy)

/-- What containment promises of a worker with breaker `b`. -/
structure Contained (T : TaskIds) (s : Supervisor) (id : WorkerId) (b : CircuitBreaker) : Prop where
  idle : b.state = .opened → s.tasks.inFlight id = 0
  stamped : ∀ label s', SupervisorStep T s label s' → ∀ b', (s'.worker id).circuit = some b' →
    b'.state = .opened → b' = b ∨ b.state ≠ .opened ∧ b'.openedAt = some s'.clock
  embargo : b.state = .opened → ∃ since, b.openedAt = some since ∧
    ∀ labels s', Runs (SupervisorStep T) s labels s' →
      (∀ label ∈ labels, ¬ label.TickAt id (since + b.policy.openDuration.nanos)) →
      (s'.worker id).circuit = some b ∧ (Counts.ofHistory id s'.history).spawned =
        (Counts.ofHistory id s.history).spawned
  trial : b.state = .halfOpen → s.tasks.inFlight id = 1
  verdict : b.state = .halfOpen → ∀ run wall now s' task, SupervisorStep T s (.join run wall now) s' →
    s.findTask run = some task → task.worker = id →
    ∃ outcome b', task.result.bind JoinResult.outcome = some outcome ∧
      (s'.worker id).circuit = some b' ∧
      (outcome.hasFailed = false → b'.state = .closed) ∧
      (outcome.hasFailed = true → b'.state = .opened ∧ b'.openedAt = some now)

/-- The outcome of a trial decides what the breaker becomes. -/
theorem trial_verdict (h : Books s) {b : CircuitBreaker}
    (hBreaker : (s.worker id).circuit = some b) (hHalf : b.state = .halfOpen) {run : Nat}
    {wall : Option Nat} {now : Instant} {task : Task}
    (hStep : SupervisorStep T s (.join run wall now) s') (hTask : s.findTask run = some task)
    (hOwner : task.worker = id) :
    ∃ outcome b', task.result.bind JoinResult.outcome = some outcome ∧
      (s'.worker id).circuit = some b' ∧
      (outcome.hasFailed = false → b'.state = .closed) ∧
      (outcome.hasFailed = true → b'.state = .opened ∧ b'.openedAt = some now) := by
  cases takes_of_step hStep with
  | @join _ _ _ found result hPhase hRunning hClock hFound hResult =>
      obtain rfl := Option.some.inj (hFound.symm.trans hTask)
      have hJoined := (findTask_mem hTask).1
      obtain ⟨outcome, hOutcome⟩ :=
        (h.balanced (.of_phase hPhase (Or.inl rfl))).1.outcome hJoined hResult
      obtain ⟨-, mid, _, -, -, hSettled, -, hAfter⟩ :=
        joined_spec (T := T) h.consistent hJoined hResult hOutcome wall now
      have hNew := hAfter.breaker (i := id)
      rw [hSettled, if_pos hOwner.symm] at hNew
      have hRecorded : ((s.ledger id).settle outcome.hasFailed now).breaker =
          some (b.record outcome.hasFailed now) := congrArg (Option.map _) hBreaker
      refine ⟨outcome, _, by rw [hResult]; exact hOutcome, hNew.trans hRecorded, ?_, ?_⟩
      · intro hSuccess
        rw [hSuccess]
        rfl
      · intro hFailed
        rw [hFailed]
        have hReopened := CircuitBreaker.recordFailure_of_halfOpen now hHalf
        exact ⟨congrArg CircuitBreaker.state hReopened, congrArg CircuitBreaker.openedAt hReopened⟩

end Supervisor

/-- Before cancellation every breaker is contained at every head of the loop,
whatever outcomes, ticks and clock readings led there. -/
theorem circuit_contained (T : TaskIds) (roster : Roster) (s : Supervisor)
    (reach : Reachable (SupervisorStep T) (.new roster) s) (hHead : s.phase = .head)
    (id : WorkerId) (hMem : id ∈ s.ids) (b : CircuitBreaker)
    (hBreaker : (s.worker id).circuit = some b) : s.Contained T id b := by
  obtain ⟨hBooks, hStamped⟩ := reach.invariant (fun s => s.Books ∧ s.Stamped)
    ⟨Supervisor.books_new roster, fun id _ b hNew hOpen => by
      simp only [Supervisor.new, RegisteredWorker.register, Option.map_eq_some_iff] at hNew
      obtain ⟨policy, -, rfl⟩ := hNew
      cases hOpen⟩
    fun _ _ _ h hStep => ⟨Supervisor.books_step h.1 hStep, Supervisor.stamped_step h.1 h.2 hStep⟩
  have hBalanced := (hBooks.balanced (.of_phase hHead (Or.inl rfl))).2 id hMem
  exact
    { idle := hBalanced.opened b hBreaker
      stamped := fun label s' hStep b' hNew hOpen => by
        obtain ⟨old, hOld, hCases⟩ := (Supervisor.breakerStep hBooks hMem hStep).opened hNew hOpen
        obtain rfl := Option.some.inj (hBreaker.symm.trans hOld)
        exact hCases
      embargo := fun hOpen => by
        obtain ⟨since, hSince, hPast⟩ := hStamped id hMem b hBreaker hOpen
        exact ⟨since, hSince, fun labels s' run hEarly =>
          Supervisor.open_of_run hBooks hMem hBreaker hOpen hSince hPast run hEarly⟩
      trial := hBalanced.halfOpen b hBreaker
      verdict := fun hHalf run wall now s' task hStep hTask hOwner =>
        Supervisor.trial_verdict hBooks hBreaker hHalf hStep hTask hOwner }

/-- The breaker of a brittle worker is open after its first run. -/
def failsFirst : List SupervisorLabel := [.start, .finish 0 (.err ⟨"disk full"⟩), .join 0 (some 5) 7]

/-- Its trial run has failed too, and is still to be joined. -/
def failsTrial : List SupervisorLabel :=
  failsFirst ++ [.tick (some 5) (fun _ => 30000000007) 30000000007, .finish 1 (.err ⟨"disk full"⟩)]

/-- The first run of a brittle worker opens its breaker, and the trial opens it again. -/
theorem circuit_contained_trial : ∃ (opened trial settled : Supervisor) (b b' b'' : CircuitBreaker),
    (opened.worker 1).circuit = some b ∧ b.state = .opened ∧ opened.Contained .counting 1 b ∧
    (trial.worker 1).circuit = some b' ∧ b'.state = .halfOpen ∧ trial.tasks.inFlight 1 = 1 ∧
    SupervisorStep .counting trial (.join 1 (some 6) 30000000009) settled ∧
    (settled.worker 1).circuit = some b'' ∧ b''.state = .opened ∧ b''.openedAt = some 30000000009 := by
  obtain ⟨opened, hRun, hHead, hMem, b, hBreaker, hOpen⟩ : ∃ s,
      replay (Supervisor.exec .counting) (.new (.single .brittle .sync)) failsFirst = some s ∧
      s.phase = .head ∧ 1 ∈ s.ids ∧ ∃ b, (s.worker 1).circuit = some b ∧ b.state = .opened :=
    ⟨_, rfl, rfl, List.mem_singleton_self 1, _, rfl, rfl⟩
  have hContained := circuit_contained .counting _ opened (runs_of_replay hRun).reachable hHead 1 hMem
    b hBreaker
  obtain ⟨trial, hRun, hHead, hMem, b', hBreaker', hHalf, settled, hStep, task, hTask, hOwner, hEnded⟩ :
      ∃ s, replay (Supervisor.exec .counting) (.new (.single .brittle .sync)) failsTrial = some s ∧
        s.phase = .head ∧ 1 ∈ s.ids ∧ ∃ b, (s.worker 1).circuit = some b ∧ b.state = .halfOpen ∧
        ∃ s', s.exec .counting (.join 1 (some 6) 30000000009) = some s' ∧
        ∃ task, s.findTask 1 = some task ∧ task.worker = 1 ∧
          task.result.bind JoinResult.outcome = some (.failed ⟨"disk full"⟩) :=
    ⟨_, rfl, rfl, List.mem_singleton_self 1, _, rfl, rfl, _, rfl, _, rfl, rfl, rfl⟩
  have hTrial := circuit_contained .counting _ trial (runs_of_replay hRun).reachable hHead 1 hMem b'
    hBreaker'
  obtain ⟨outcome, b'', hOutcome, hAfter, -, hReopened⟩ :=
    hTrial.verdict hHalf 1 (some 6) 30000000009 settled task hStep hTask hOwner
  obtain rfl := Option.some.inj (hEnded.symm.trans hOutcome)
  obtain ⟨hOpened, hStamp⟩ := hReopened rfl
  exact ⟨opened, trial, settled, b, b', b'', hBreaker, hOpen, hContained, hBreaker', hHalf,
    hTrial.trial hHalf, hStep, hAfter, hOpened, hStamp⟩

end ServiceKernel
