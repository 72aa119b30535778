import ServiceKernel.Worker.LifeSteps

/-! Where a worker stands at each stage of the supervisor, and a rule for laws of its
trail: what decides whether one step of a worker's life obeys the law decides
whether a whole run of the supervisor does. -/
namespace ServiceKernel

open Execution

/-- The trail of a worker whose latest run has been judged. -/
def judgedTrail (id : WorkerId) (spec : WorkerSpec) (before : List SupervisorRecord) (run : Nat)
    (cancelled : Bool) (outcome : SupervisorOutcome) (attempts : UInt32) : List SupervisorRecord :=
  before ++ spawnRecords id spec.name run cancelled ++ judgeRecords id spec run outcome attempts

/-- The worker's latest run was judged and it is to be restarted. -/
inductive Life.Waits (id : WorkerId) (spec : WorkerSpec) (l : Life) : Prop where
  | judged {before : List SupervisorRecord} {run : Nat} {cancelled : Bool}
      {outcome : SupervisorOutcome} (hState : l.state = .restarting) (hRuns : l.runs = [])
      (hTrail : l.trail = judgedTrail id spec before run cancelled outcome l.attempts ++
        [.stateSet id .restarting])
      (hAllowed : spec.restart.shouldRestart outcome.hasFailed l.attempts = true)
      (hClosed : ¬ l.Suppressed) : Waits id spec l

/-- The worker's latest run was judged and it was retired. -/
inductive Life.Rests (id : WorkerId) (spec : WorkerSpec) (l : Life) : Prop where
  | judged {before : List SupervisorRecord} {run : Nat} {cancelled : Bool}
      {outcome : SupervisorOutcome} (hState : l.state = .stopped) (hRuns : l.runs = [])
      (hTrail : l.trail = judgedTrail id spec before run cancelled outcome l.attempts ++
        retireRecords id spec.name outcome.hasFailed)
      (hFailed : l.Suppressed → outcome.hasFailed = true) : Rests id spec l

/-- How the cells and the trail of a worker fit together at each stage. -/
inductive Life.Stands (id : WorkerId) (spec : WorkerSpec) (l : Life) : WorkerStage → Prop where
  | fresh (hState : l.state = .created) (hRuns : l.runs = []) (hTrail : l.trail = []) :
      Stands id spec l .pending
  | running {before : List SupervisorRecord} {run : Nat} {cancelled : Bool}
      (hState : l.state = .running) (hRuns : l.runs = [run])
      (hTrail : l.trail = before ++ spawnRecords id spec.name run cancelled) :
      Stands id spec l .supervised
  | waiting (hWaits : l.Waits id spec) : Stands id spec l .supervised
  | resting (hRests : l.Rests id spec) : Stands id spec l .supervised
  | backingOff (hWaits : l.Waits id spec) : Stands id spec l .backingOff
  | stopping {before : List SupervisorRecord} (hState : l.state = .stopping)
      (hTrail : l.trail = before ++ [.stateSet id .stopping, .event (.stopping id)]) :
      Stands id spec l .draining
  | ended {before : List SupervisorRecord} (hState : l.state = .stopped)
      (hTrail : l.trail = before ++ [.stateSet id .stopped, .event (.stopped id spec.name)]) :
      Stands id spec l .ended

namespace Life

variable {id : WorkerId} {spec : WorkerSpec} {l : Life} {run : Nat} {cancelled : Bool}

/-- A worker with nothing in flight that gets a task is running. -/
theorem Stands.of_spawn (hRuns : l.runs = []) :
    (l.spawn id spec.name run cancelled).Stands id spec .supervised :=
  .running rfl (by simp [spawn, hRuns]) rfl

/-- A tick does not trip a breaker. -/
theorem suppressed_of_tick {now : Instant} (h : (l.tick now).Suppressed) : l.Suppressed := by
  obtain ⟨b, hBreaker, hState⟩ := h
  obtain ⟨old, hOld, rfl⟩ := Option.map_eq_some_iff.mp hBreaker
  refine ⟨old, hOld, ?_⟩
  by_contra hNot
  rw [CircuitBreaker.tick_of_ne_opened hNot] at hState
  exact hNot hState

theorem Stands.tick (h : l.Stands id spec .supervised) (now : Instant) :
    (l.tick now).Stands id spec .supervised := by
  cases h with
  | running hState hRuns hTrail => exact .running hState hRuns hTrail
  | waiting hWaits =>
      obtain ⟨hState, hRuns, hTrail, hAllowed, hClosed⟩ := hWaits
      exact .waiting (.judged hState hRuns hTrail hAllowed fun h => hClosed (suppressed_of_tick h))
  | resting hRests =>
      obtain ⟨hState, hRuns, hTrail, hFailed⟩ := hRests
      exact .resting (.judged hState hRuns hTrail fun h => hFailed (suppressed_of_tick h))

/-- A breaker that a success was put before is closed. -/
theorem hasFailed_of_suppressed {outcome : SupervisorOutcome} {attempts : UInt32} {now : Instant}
    (h : (l.judge id spec run outcome attempts now).Suppressed) : outcome.hasFailed = true := by
  obtain ⟨b, hBreaker, hState⟩ := h
  obtain ⟨old, -, rfl⟩ := Option.map_eq_some_iff.mp hBreaker
  cases hFailed : outcome.hasFailed with
  | true => rfl
  | false =>
      rw [hFailed] at hState
      cases hState

end Life

namespace Supervisor

variable {T : TaskIds} {s s' : Supervisor} {id i : WorkerId} {label : SupervisorLabel}

/-- Worker `i` stands as its stage says. -/
def Stands (s : Supervisor) (i : WorkerId) : Prop :=
  (s.life i).Stands i (s.worker i).spec (s.phase.stage i)

theorem closedToHalfOpen_suppressed {nows : WorkerId → Instant} (h : i ∈ s.closedToHalfOpen nows) :
    (s.life i).Suppressed := by
  obtain ⟨-, b, hBreaker, hState, -⟩ := mem_closedToHalfOpen.mp h
  exact ⟨b, hBreaker, hState⟩

theorem supervising_of_stage (h : s.phase.stage i = .supervised) : s.Supervising := by
  unfold Supervising
  cases hPhase : s.phase with
  | head => trivial
  | idle => trivial
  | backoff _ _ _ _ => trivial
  | _ =>
      rw [hPhase] at h
      cases h

theorem stage_of_supervising (h : s.Supervising) :
    s.phase.stage i = .supervised ∨ s.phase.stage i = .backingOff := by
  unfold Supervising at h
  cases hPhase : s.phase with
  | head => exact Or.inl rfl
  | idle => exact Or.inl rfl
  | backoff id name attempts due =>
      rw [SupervisorPhase.stage]
      split_ifs
      · exact Or.inr rfl
      · exact Or.inl rfl
  | _ => simp [hPhase] at h

/-- A worker whose breaker is open has been retired. -/
theorem Stands.rests (hBooks : Books s) (hMem : i ∈ s.ids) (hFrom : s.phase.stage i = .supervised)
    (h : s.Stands i) (hOpen : (s.life i).Suppressed) : (s.life i).Rests i (s.worker i).spec := by
  rw [Stands, hFrom] at h
  obtain ⟨b, hBreaker, hState⟩ := hOpen
  cases h with
  | running _ hRuns _ =>
      have hIdle := ((hBooks.balanced (supervising_of_stage hFrom)).2 i hMem).opened b hBreaker hState
      have hCount := inFlight_eq (s := s) (i := i)
      rw [hRuns] at hCount
      cases hCount.symm.trans hIdle
  | waiting hWaits =>
      obtain ⟨_, _, _, _, hClosed⟩ := hWaits
      exact absurd ⟨b, hBreaker, hState⟩ hClosed
  | resting hRests => exact hRests

/-- A join settles the task that the worker is running. -/
theorem Stands.running_of_task (hFrom : s.phase.stage i = .supervised) (h : s.Stands i)
    {run : Nat} {task : Task} (hTask : s.findTask run = some task) (hOwner : task.worker = i) :
    (s.life i).state = .running ∧ ((s.life i).join run).runs = [] ∧ ∃ before cancelled,
      ((s.life i).join run).trail = before ++ spawnRecords i (s.worker i).spec.name run cancelled := by
  obtain ⟨hIn, rfl⟩ := findTask_mem hTask
  have hRun : task.run ∈ (s.life i).runs :=
    List.mem_map.mpr ⟨task, List.mem_filter.mpr ⟨hIn, decide_eq_true hOwner⟩, rfl⟩
  rw [Stands, hFrom] at h
  cases h with
  | running hState hRuns hTrail =>
      rw [hRuns, List.mem_singleton] at hRun
      rw [← hRun] at hRuns hTrail
      exact ⟨hState, Life.join_runs hRuns, _, _, hTrail⟩
  | waiting hWaits =>
      obtain ⟨_, hRuns, _⟩ := hWaits
      rw [hRuns] at hRun
      cases hRun
  | resting hRests =>
      obtain ⟨_, hRuns, _⟩ := hRests
      rw [hRuns] at hRun
      cases hRun

/-- A restart resumes a worker that waits for it. -/
theorem Stands.waits (h : s.Stands i) {name : String} {attempts : UInt32} {due : Instant}
    (hFrom : s.phase = .backoff i name attempts due) : (s.life i).Waits i (s.worker i).spec := by
  have hStage : s.phase.stage i = .backingOff := by
    rw [hFrom]
    exact if_pos rfl
  rw [Stands, hStage] at h
  cases h with
  | backingOff hWaits => exact hWaits

theorem stands_settled {run : Nat} {outcome : SupervisorOutcome} {attempts : UInt32} {now : Instant}
    {l : Life} {before : List SupervisorRecord} {cancelled : Bool} {spec : WorkerSpec}
    (hRuns : l.runs = []) (hTrail : l.trail = before ++ spawnRecords i spec.name run cancelled)
    (hSettled : Settled s' i spec outcome.hasFailed (l.judge i spec run outcome attempts now)) :
    (s'.life i).Stands i spec (s'.phase.stage i) := by
  have hJudged : (l.judge i spec run outcome attempts now).trail =
      judgedTrail i spec before run cancelled outcome attempts := by
    simp [Life.judge, Life.add, judgedTrail, hTrail]
  cases hSettled with
  | retired hRefused hPhase hLife =>
      have hRetired : (s'.life i).trail = judgedTrail i spec before run cancelled outcome attempts ++
          retireRecords i spec.name outcome.hasFailed := by
        rw [hLife, Life.retire, Life.add, hJudged]
      have hFailed : (l.judge i spec run outcome attempts now).Suppressed →
          outcome.hasFailed = true := Life.hasFailed_of_suppressed
      rw [hLife] at hRetired
      rw [hPhase, hLife]
      exact .resting (.judged rfl hRuns hRetired hFailed)
  | waiting hAllowed hClosed hDelay hPhase hLife =>
      have hWaiting : (s'.life i).trail = judgedTrail i spec before run cancelled outcome attempts ++
          [.stateSet i .restarting] := by
        rw [hLife, Life.wait, Life.add, hJudged]
      rw [hLife] at hWaiting
      rw [hPhase, hLife, SupervisorPhase.stage, if_pos rfl]
      exact .backingOff (.judged rfl hRuns hWaiting hAllowed hClosed)
  | restarted hAllowed hClosed hDelay hPhase hLife =>
      rw [hPhase, hLife]
      exact .of_spawn hRuns

/-- A step in the life of a worker leaves it standing as its new stage says. -/
theorem stands_step (hBooks : Books s) (hMem : i ∈ s.ids)
    (hSpec : (s'.worker i).spec = (s.worker i).spec) (h : s.Stands i) (hStep : LifeStep s s' i label) : s'.Stands i := by
  rw [Stands, hSpec]
  cases hStep with
  | begun hFrom hTo hLife =>
      rw [Stands, hFrom] at h
      cases h with
      | fresh _ hRuns _ =>
          rw [hTo, hLife]
          exact .of_spawn hRuns
  | ticked hKeep hFrom hTo hLife =>
      rw [Stands, hFrom] at h
      rw [hTo, hLife]
      exact h.tick _
  | tried hHalf hFrom hTo hLife =>
      obtain ⟨_, hRuns, _⟩ := h.rests hBooks hMem hFrom (closedToHalfOpen_suppressed hHalf)
      rw [hTo, hLife]
      exact .of_spawn hRuns
  | settled hFrom hTask hOwner hOutcome hSettled =>
      obtain ⟨-, hRuns, before, cancelled, hTrail⟩ := h.running_of_task hFrom hTask hOwner
      exact stands_settled hRuns hTrail hSettled
  | resumed hFrom hTo hLife =>
      obtain ⟨_, hRuns, _⟩ := h.waits hFrom
      rw [hTo, hLife]
      exact .of_spawn hRuns
  | stopping hFrom hTo hLife =>
      rw [hTo, hLife]
      exact .stopping rfl rfl
  | joinedLate hFrom hTo hLife =>
      rw [Stands, hFrom] at h
      cases h with
      | stopping hState hTrail =>
          rw [hTo, hLife]
          exact .stopping hState hTrail
  | stopped hFrom hTo hLife =>
      rw [hTo, hLife]
      exact .ended rfl rfl
  | spared hSpares hStage hLife =>
      rw [hLife]
      rcases hStage with hSame | ⟨hFrom, hTo⟩
      · rw [hSame]
        exact h
      · rw [Stands, hFrom] at h
        cases h with
        | backingOff hWaits =>
            rw [hTo]
            exact .waiting hWaits

/-- The books are kept and every worker stands as its stage says. -/
structure Audited (s : Supervisor) : Prop where
  books : Books s
  stands : ∀ i ∈ s.ids, s.Stands i

theorem audited_new (roster : Roster) : (new roster).Audited where
  books := books_new roster
  stands _ _ := .fresh rfl rfl rfl

theorem Audited.step (h : s.Audited) (hStep : SupervisorStep T s label s') : s'.Audited where
  books := books_step h.books hStep
  stands i hMem := by
    have hSteady := steady_step h.books hStep
    rw [hSteady.ids] at hMem
    exact stands_step h.books hMem (hSteady.spec i) (h.stands i hMem)
      (lifeStep_of_step h.books hStep hMem)

theorem audited_of_reachable {roster : Roster}
    (reach : Reachable (SupervisorStep T) (new roster) s) : s.Audited :=
  reach.invariant Audited (audited_new roster) fun _ _ _ h hStep => h.step hStep

/-- A law for the trail of one worker: what each record owes to the records before it. -/
abbrev TrailLaw := WorkerId → WorkerSpec → List SupervisorRecord → SupervisorRecord → Prop

/-- The trail of every registered worker obeys the law. -/
def Lawful (law : TrailLaw) (s : Supervisor) : Prop :=
  ∀ i ∈ s.ids, Every (law i (s.worker i).spec) (trail i s.history)

theorem lawful_new (law : TrailLaw) (roster : Roster) : (new roster).Lawful law :=
  fun _ _ => every_nil

/-- A condition on steps, worker by worker, under which their lives stay lawful. -/
def Decides (law : TrailLaw) (cond : Supervisor → SupervisorLabel → WorkerId → Prop) : Prop :=
  ∀ s s' label i, s.Audited → i ∈ s.ids → LifeStep s s' i label →
    Every (law i (s.worker i).spec) (s.life i).trail →
      (Every (law i (s.worker i).spec) (s'.life i).trail ↔ cond s label i)

/-- A law that is decided for the life of one worker is decided for the supervisor. -/
theorem Decides.lawful_iff {law : TrailLaw} {cond : Supervisor → SupervisorLabel → WorkerId → Prop}
    (h : Decides law cond) (hAudited : s.Audited) (hLawful : s.Lawful law)
    (hStep : SupervisorStep T s label s') : s'.Lawful law ↔ ∀ i ∈ s.ids, cond s label i := by
  have hSteady := steady_step hAudited.books hStep
  rw [Lawful, hSteady.ids]
  apply forall₂_congr
  intro i hMem
  rw [hSteady.spec]
  exact h s s' label i hAudited hMem (lifeStep_of_step hAudited.books hStep hMem) (hLawful i hMem)

/-- The runs that stay good are exactly the runs whose steps all meet the condition,
where to be good is to obey the law. -/
theorem Decides.runs_iff {law : TrailLaw} {cond : Supervisor → SupervisorLabel → WorkerId → Prop}
    (h : Decides law cond) {good : Supervisor → Prop}
    (hGood : ∀ s : Supervisor, s.Audited → (good s ↔ s.Lawful law)) (roster : Roster)
    (labels : List SupervisorLabel) (finish : Supervisor) :
    Runs (Within (SupervisorStep T) good) (new roster) labels finish ↔
      Runs (Restrict (SupervisorStep T) fun s label => ∀ i ∈ s.ids, cond s label i)
        (new roster) labels finish :=
  runs_within_iff_restrict good Audited
    ((hGood _ (audited_new roster)).mpr (lawful_new law roster)) (audited_new roster)
    (fun _ _ _ hAudited hStep => hAudited.step hStep)
    fun _ _ _ hAudited hLawful hStep => (hGood _ (hAudited.step hStep)).trans
      (h.lawful_iff hAudited ((hGood _ hAudited).mp hLawful) hStep)

end Supervisor

end ServiceKernel
