import ServiceKernel.Worker.Life

/-! The supervisor as one worker sees it: a small machine for each registered worker,
which every step of the supervisor follows. -/
namespace ServiceKernel

open Execution

/-- Where the supervisor stands, as far as one worker is concerned. -/
inductive WorkerStage where
  | pending
  | supervised
  | backingOff
  | draining
  | ended
  deriving DecidableEq, Repr

def SupervisorPhase.stage (i : WorkerId) : SupervisorPhase → WorkerStage
  | .notStarted => .pending
  | .head => .supervised
  | .idle => .supervised
  | .backoff id _ _ _ => if id = i then .backingOff else .supervised
  | .draining _ _ _ => .draining
  | .aborting _ _ => .draining
  | .returned _ _ => .ended

/-- The outcome of a task that has ended without being aborted. -/
def Task.outcome (task : Task) : Option SupervisorOutcome := task.result.bind (·.outcome)

namespace Supervisor

variable {T : TaskIds} {s s' : Supervisor} {id i : WorkerId} {label : SupervisorLabel}

/-- What is joined at the head of the loop has an outcome. -/
theorem Books.outcome_of_head (h : Books s) (hPhase : s.phase = .head) {task : Task}
    {result : JoinResult} (hIn : task ∈ s.joinSet) (hResult : task.result = some result) :
    ∃ outcome, result.outcome = some outcome ∧ task.outcome = some outcome := by
  have hLive := (h.balanced (.of_phase hPhase (Or.inl rfl))).1
  obtain ⟨outcome, hOutcome⟩ := hLive.outcome hIn hResult
  refine ⟨outcome, hOutcome, ?_⟩
  rw [Task.outcome, hResult]
  exact hOutcome

/-- The steps that are no part of the worker's life. -/
def Spares (s : Supervisor) (i : WorkerId) : SupervisorLabel → Prop
  | .start => False
  | .tick _ _ _ => False
  | .join run _ _ => ∀ task, s.findTask run = some task → task.worker ≠ i
  | .backoffElapsed _ => ∀ name attempts due, s.phase ≠ .backoff i name attempts due
  | .cancelObserved _ => False
  | .drained => False
  | _ => True

/-- What a step of the supervisor does to the life of worker `i`. -/
inductive LifeStep (s s' : Supervisor) (i : WorkerId) : SupervisorLabel → Prop where
  | begun {run : Nat} {cancelled : Bool} (hFrom : s.phase.stage i = .pending)
      (hTo : s'.phase.stage i = .supervised)
      (hLife : s'.life i = (s.life i).spawn i (s.worker i).spec.name run cancelled) :
      LifeStep s s' i .start
  | ticked {wall : Option Nat} {nows : WorkerId → Instant} {after : Instant}
      (hKeep : i ∉ s.closedToHalfOpen nows) (hFrom : s.phase.stage i = .supervised)
      (hTo : s'.phase.stage i = .supervised) (hLife : s'.life i = (s.life i).tick (nows i)) :
      LifeStep s s' i (.tick wall nows after)
  | tried {wall : Option Nat} {nows : WorkerId → Instant} {after : Instant} {run : Nat}
      {cancelled : Bool} (hHalf : i ∈ s.closedToHalfOpen nows)
      (hFrom : s.phase.stage i = .supervised) (hTo : s'.phase.stage i = .supervised)
      (hLife : s'.life i =
        ((s.life i).tick (nows i)).spawn i (s.worker i).spec.name run cancelled) :
      LifeStep s s' i (.tick wall nows after)
  | settled {run : Nat} {wall : Option Nat} {now : Instant} {task : Task}
      {outcome : SupervisorOutcome} (hFrom : s.phase.stage i = .supervised)
      (hTask : s.findTask run = some task) (hOwner : task.worker = i)
      (hOutcome : task.outcome = some outcome)
      (hSettled : Settled s' i (s.worker i).spec outcome.hasFailed
        (((s.life i).join run).judge i (s.worker i).spec run outcome
          ((s.worker i).attemptsAfter outcome.hasFailed wall) now)) :
      LifeStep s s' i (.join run wall now)
  | resumed {name : String} {attempts : UInt32} {due now : Instant} {attempt : UInt32} {run : Nat}
      {cancelled : Bool} (hFrom : s.phase = .backoff i name attempts due)
      (hTo : s'.phase.stage i = .supervised)
      (hLife : s'.life i =
        (s.life i).restart i name attempt (s.worker i).spec.name run cancelled) :
      LifeStep s s' i (.backoffElapsed now)
  | stopping {now : Instant} (hFrom : s.phase.stage i = .supervised)
      (hTo : s'.phase.stage i = .draining) (hLife : s'.life i = (s.life i).stop i) :
      LifeStep s s' i (.cancelObserved now)
  | joinedLate {run : Nat} (hFrom : s.phase.stage i = .draining)
      (hTo : s'.phase.stage i = .draining)
      (hLife : s'.life i = { s.life i with runs := (s'.life i).runs }) :
      LifeStep s s' i (.drain run)
  | stopped (hFrom : s.phase.stage i = .draining) (hTo : s'.phase.stage i = .ended)
      (hLife : s'.life i = (s.life i).markStopped i (s.worker i).spec.name) :
      LifeStep s s' i .drained
  | spared {other : SupervisorLabel} (hSpares : s.Spares i other)
      (hStage : s'.phase.stage i = s.phase.stage i ∨
        s.phase.stage i = .backingOff ∧ s'.phase.stage i = .supervised)
      (hLife : s'.life i = s.life i) : LifeStep s s' i other

theorem inFlight_eq : s.tasks.inFlight i = (s.life i).runs.length := by
  simp [TaskTable.inFlight, life, tasks, List.countP_eq_length_filter]

section Loops

/-- Every registered worker gets its first task. -/
theorem life_spawnAll (hNodup : s.ids.Nodup) (hMem : i ∈ s.ids) : ∃ run cancelled,
    (s.ids.foldl (fun s id => s.spawnOne T id) s).life i =
      (s.life i).spawn i (s.worker i).spec.name run cancelled := by
  refine (foldl_related (fun st => st.frame = s.frame) life (fun _ => True)
    (fun key l l' => ∃ run cancelled, l' = l.spawn key (s.worker key).spec.name run cancelled)
    rfl hNodup (fun _ _ => trivial) ?_).2.1 i hMem
  rintro st key hKey hFrame -
  have hIn : key ∈ st.ids := by
    rw [ids_eq hFrame]
    exact hKey
  have hSpec : (st.worker key).spec = (s.worker key).spec :=
    congrFun (congrArg Frame.spec hFrame) key
  refine ⟨frame_spawnOne.trans hFrame, ?_, fun k hNe => ?_⟩
  · rw [life_spawnOne hIn, if_pos rfl, hSpec]
    exact ⟨_, _, rfl⟩
  · rw [life_spawnOne hIn, if_neg hNe]

/-- A trial is a spawn for an idle worker. -/
theorem life_startTrial (hMem : id ∈ s.ids) (hTasks : s.tasks.Consistent)
    (hIdle : (s.life id).runs = []) : (s.startTrial T id).life i = if i = id then
      (s.life i).spawn id (s.worker id).spec.name s.contexts.length (s.isCancelled id)
      else s.life i := by
  let announced := s.emit (.circuitHalfOpened id (s.worker id).spec.name)
  have hLife : ∀ k, announced.life k = s.life k := fun k => life_log_other rfl
  have hNotRunning : ¬ (announced.taskToWorker.entries.any fun entry => entry.2 = id) = true := by
    intro hNamed
    have hPos := hTasks.named_iff.mp hNamed
    rw [inFlight_eq, hIdle] at hPos
    exact absurd hPos (Nat.lt_irrefl 0)
  have hSpawn : s.startTrial T id = announced.spawnOne T id := by
    simp only [startTrial, spawnOneIfIdle]
    exact if_neg hNotRunning
  have hMem' : id ∈ announced.ids := hMem
  rw [hSpawn, life_spawnOne hMem', hLife]
  rfl

/-- A tick moves the worker's breaker, and starts a trial if it half-opens it. -/
theorem life_watchdogTick (wall : Option Nat) (nows : WorkerId → Instant) (hNodup : s.ids.Nodup)
    (hTasks : s.tasks.Consistent)
    (hOpen : ∀ id ∈ s.ids, ∀ b, (s.life id).breaker = some b → b.state = .opened →
      (s.life id).runs = []) (hMem : i ∈ s.ids) :
    if i ∈ s.closedToHalfOpen nows then ∃ run cancelled, (s.watchdogTick T wall nows).life i =
      ((s.life i).tick (nows i)).spawn i (s.worker i).spec.name run cancelled
    else (s.watchdogTick T wall nows).life i = (s.life i).tick (nows i) := by
  have hTicked := fun k => life_tickBreakers (s := s) (i := k) nows
  obtain ⟨-, hTrials, hOther⟩ := foldl_related
    (fun st => st.frame = s.frame ∧ st.tasks.Consistent) life (fun l => l.runs = [])
    (fun key l l' => ∃ run cancelled, l' = l.spawn key (s.worker key).spec.name run cancelled)
    (f := fun s id => s.startTrial T id) (s := s.tickBreakers nows)
    ⟨frame_tickBreakers nows, hTasks⟩
    (show (s.closedToHalfOpen nows).Nodup from hNodup.filter _)
    (fun key hKey => by
      obtain ⟨hIn, b, hBreaker, hState, -⟩ := mem_closedToHalfOpen.mp hKey
      rw [hTicked, if_pos hIn]
      exact hOpen key hIn b hBreaker hState)
    (by
      rintro st key hKey ⟨hFrame, hConsistent⟩ hIdle
      have hIn : key ∈ st.ids := by
        rw [ids_eq hFrame]
        exact (mem_closedToHalfOpen.mp hKey).1
      have hSpec : (st.worker key).spec = (s.worker key).spec :=
        congrFun (congrArg Frame.spec hFrame) key
      have hIdle' : (st.ledger key).inFlight = 0 := by
        have hCount := inFlight_eq (s := st) (i := key)
        rw [hIdle] at hCount
        exact hCount
      obtain ⟨hFrame', hSpawned, -⟩ := startTrial_spec (T := T) hIn hConsistent hIdle'
      refine ⟨⟨hFrame'.trans hFrame, ?_⟩, ?_, fun k hNe => ?_⟩
      · rw [hSpawned]
        exact hConsistent.spawn hIn
      · rw [life_startTrial hIn hConsistent hIdle, if_pos rfl, hSpec]
        exact ⟨_, _, rfl⟩
      · rw [life_startTrial hIn hConsistent hIdle, if_neg hNe])
  have hReported : ∀ st : Supervisor, ∀ timeouts : List WatchdogTimeout,
      (timeouts.foldl reportTimeout st).life i = st.life i := fun st timeouts =>
    foldl_keeps (fun st' : Supervisor => st'.life i = st.life i) rfl
      fun st' timeout _ hSame => (life_reportTimeout timeout).trans hSame
  have hEnd : (s.watchdogTick T wall nows).life i =
      ((s.closedToHalfOpen nows).foldl (fun s id => s.startTrial T id) (s.tickBreakers nows)).life i :=
    hReported _ _
  have hTick : (s.tickBreakers nows).life i = (s.life i).tick (nows i) := by
    rw [hTicked, if_pos hMem]
  split_ifs with hHalf
  · rw [hEnd, ← hTick]
    exact hTrials i hHalf
  · rw [hEnd, hOther i hHalf, hTick]

/-- The loops of `shutdown_all` visit every worker once. -/
theorem life_closing {f : Supervisor → WorkerId → Supervisor} (move : WorkerId → Life → Life)
    (hNodup : s.ids.Nodup) (hMem : i ∈ s.ids)
    (hPass : ∀ st id, st.frame = s.frame → (f st id).frame = s.frame ∧
      (f st id).life id = move id (st.life id) ∧ ∀ k, k ≠ id → (f st id).life k = st.life k) :
    (s.ids.foldl f s).life i = move i (s.life i) :=
  (foldl_related (fun st => st.frame = s.frame) life (fun _ => True)
    (fun key l l' => l' = move key l) rfl hNodup (fun _ _ => trivial)
    fun st key _ hFrame _ => hPass st key hFrame).2.1 i hMem

theorem life_stopWorker : (s.stopWorker id).life i =
    if i = id then (s.life i).stop id else s.life i := by
  simp only [stopWorker, emit, life_log, life_cancelWorkerToken, life_setState,
    SupervisorRecord.subject, Option.some.injEq, eq_comm (a := id)]
  split_ifs <;> simp [Life.stop, Life.add]

theorem life_markStopped : (s.markStopped id).life i =
    if i = id then (s.life i).markStopped id (s.worker id).spec.name else s.life i := by
  simp only [markStopped, emit, life_log, life_setState, SupervisorRecord.subject,
    Option.some.injEq, eq_comm (a := id)]
  split_ifs <;> simp [Life.markStopped, Life.add]

/-- A task that ends is still in flight until it is joined. -/
theorem life_endTask (run : Nat) (result : Task → JoinResult) :
    (s.endTask run result).life i = s.life i := by
  have hSame : ∀ tasks : List Task, ((tasks.map fun t =>
      if t.run = run then { t with result := some (result t) } else t).filter
        fun t => t.worker = i).map Task.run = (tasks.filter fun t => t.worker = i).map Task.run := by
    intro tasks
    induction tasks with
    | nil => rfl
    | cons task tasks ih =>
        simp only [List.map_cons, List.filter_cons]
        split_ifs <;> simp_all
  simp only [life, endTask, hSame]

end Loops

/-- Every step of the supervisor is a step in the life of each worker. -/
theorem lifeStep_of_step (h : Books s) (hStep : SupervisorStep T s label s') (hMem : i ∈ s.ids) :
    LifeStep s s' i label := by
  cases takes_of_step hStep with
  | start hPhase =>
      obtain ⟨run, cancelled, hLife⟩ := life_spawnAll (T := T) h.nodup hMem
      exact .begun (by rw [hPhase]; rfl) rfl hLife
  | @tick wall nows after hPhase hNows hClock =>
      have hLoop : s.phase.stage i = .supervised ∧ s.Supervising := by
        rcases hPhase with ⟨hPhase, -⟩ | hPhase
        · exact ⟨by rw [hPhase]; rfl, .of_phase hPhase (Or.inl rfl)⟩
        · exact ⟨by rw [hPhase]; rfl, .of_phase hPhase (Or.inr (Or.inl rfl))⟩
      have hLife := life_watchdogTick (T := T) wall nows h.nodup h.consistent
        (fun id hIn b hBreaker hOpened => by
          have hIdle := ((h.balanced hLoop.2).2 id hIn).opened b hBreaker hOpened
          exact List.length_eq_zero_iff.mp (inFlight_eq.symm.trans hIdle)) hMem
      split_ifs at hLife with hHalf
      · obtain ⟨run, cancelled, hLife⟩ := hLife
        exact .tried hHalf hLoop.1 rfl hLife
      · exact .ticked hHalf hLoop.1 rfl hLife
  | @join run wall now task result hPhase hRunning hClock hTask hResult =>
      obtain ⟨hIn, hRun⟩ := findTask_mem hTask
      obtain ⟨outcome, hOutcome, hEnded⟩ := h.outcome_of_head hPhase hIn hResult
      let ready : Supervisor := { s with clock := now }
      let removed := ready.removeTask task
      have hOwner : task.worker ∈ removed.ids := h.consistent.known task hIn
      have hRemoved : ∀ k, removed.life k = { s.life k with
          runs := if k = task.worker then (s.life k).runs.erase task.run else (s.life k).runs } :=
        fun k => life_removeTask (s := ready) h.consistent hIn
      have hJoined : ready.joined T task result wall =
          removed.handleOutcome T task.worker task.run outcome wall :=
        joined_eq (s := ready) h.consistent hIn hResult hOutcome wall
      have hSettled := handleOutcome_settled (T := T) (s := removed) hOwner hPhase task.run outcome
        wall
      rw [← hJoined, hRemoved, if_pos rfl, hRun] at hSettled
      rcases eq_or_ne i task.worker with rfl | hne
      · exact .settled (by rw [hPhase]; rfl) hTask rfl hEnded hSettled
      · refine .spared (fun other hOther => ?_) (Or.inl ?_) ?_
        · obtain rfl := Option.some.inj (hTask.symm.trans hOther)
          exact hne.symm
        · cases hSettled with
          | retired _ hPhase' _ => rw [hPhase', hPhase]
          | waiting _ _ _ hPhase' _ =>
              rw [hPhase', hPhase]
              exact if_neg hne.symm
          | restarted _ _ _ hPhase' _ => rw [hPhase', hPhase]
        · rw [hJoined, life_handleOutcome_other hOwner hne, hRemoved, if_neg hne]
  | joinNone hPhase hEmpty =>
      exact .spared trivial (Or.inl (by rw [hPhase]; rfl)) rfl
  | @backoffElapsed id name attempts due now hPhase hDue hClock =>
      have hIn : id ∈ { s with clock := now }.ids := (h.waiting _ _ _ _ hPhase).1
      have hLife := life_restartNow (T := T) (i := i) hIn name attempts
      rcases eq_or_ne i id with rfl | hne
      · rw [if_pos rfl] at hLife
        exact .resumed hPhase rfl hLife
      · rw [if_neg hne] at hLife
        refine .spared (fun _ _ _ hWait => ?_) (Or.inl ?_) hLife
        · rw [hPhase, SupervisorPhase.backoff.injEq] at hWait
          exact hne hWait.1.symm
        · rw [hPhase]
          exact (if_neg hne.symm).symm
  | @backoffCancelled id name attempts due hPhase hCancelled =>
      refine .spared trivial ?_ rfl
      rw [hPhase]
      by_cases hOwn : id = i
      · exact Or.inr ⟨if_pos hOwn, rfl⟩
      · exact Or.inl (if_neg hOwn).symm
  | cancelObserved hPhase hCancelled hClock =>
      refine .stopping ?_ rfl ?_
      · rcases hPhase with hPhase | hPhase <;> rw [hPhase] <;> rfl
      · apply life_closing (fun id l => l.stop id) h.nodup hMem
        intro st id hFrame
        refine ⟨?_, ?_, fun k hNe => ?_⟩
        · simpa [stopWorker] using hFrame
        · rw [life_stopWorker, if_pos rfl]
        · rw [life_stopWorker, if_neg hNe]
  | drain hPhase hTask hResult =>
      exact .joinedLate (by rw [hPhase]; rfl) rfl rfl
  | drainAborting hPhase hTask hResult =>
      exact .joinedLate (by rw [hPhase]; rfl) rfl rfl
  | graceExpired hPhase hDue hClock =>
      exact .spared trivial (Or.inl (by rw [hPhase]; rfl)) rfl
  | drained hPhase hEmpty =>
      refine .stopped ?_ rfl ?_
      · rcases hPhase with hPhase | ⟨deadline, hPhase⟩ <;> rw [hPhase] <;> rfl
      · refine life_closing (fun id l => l.markStopped id (s.worker id).spec.name) h.nodup hMem
          fun st id hFrame => ?_
        have hSpec : (st.worker id).spec = (s.worker id).spec :=
          congrFun (congrArg Frame.spec hFrame) id
        refine ⟨?_, ?_, fun k hNe => ?_⟩
        · simpa [markStopped] using hFrame
        · rw [life_markStopped, if_pos rfl, hSpec]
        · rw [life_markStopped, if_neg hNe]
  | finish hTask hRunning => exact .spared trivial (Or.inl rfl) (life_endTask ..)
  | abort hPhase hTask hRunning => exact .spared trivial (Or.inl rfl) (life_endTask ..)
  | heartbeat hContext =>
      refine .spared trivial (Or.inl rfl) ((life_log_other rfl).trans ?_)
      rw [life_modifyWorker]
      split_ifs with hSame
      · subst hSame
        rfl
      · rfl
  | cancel => exact .spared trivial (Or.inl rfl) (life_log_other rfl)
  | cancelWorker hMem =>
      exact .spared trivial (Or.inl rfl) ((life_log_other rfl).trans life_cancelWorkerToken)

end Supervisor

end ServiceKernel
