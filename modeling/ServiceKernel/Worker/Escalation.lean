import ServiceKernel.Worker.StoppedState

/-! When the supervisor responds to a failure according to the worker's criticality,
and what that response is. -/
namespace ServiceKernel

open Execution

/-- What the restart policy was asked last. -/
def latestConsult (past : List SupervisorRecord) : Option (Bool × UInt32) :=
  past.foldl (fun latest record => match record with
    | .consulted _ hasFailed failures _ => some (hasFailed, failures)
    | _ => latest) none

/-- The criticality of a worker is applied only for a failure that the policy refuses
to restart it from, and then the worker is not spawned again. -/
def EscalationJustified (id : WorkerId) (spec : WorkerSpec) (past : List SupervisorRecord) :
    SupervisorRecord → Prop
  | .criticalityApplied _ => ∃ failures, latestConsult past = some (true, failures) ∧
      spec.restart.shouldRestart true failures = false
  | .spawned _ _ _ => .criticalityApplied id ∉ past
  | _ => True

/-- A shutdown is signalled, and health is reported, only by applying a criticality. -/
def AppliedFor (spec : WorkerId → WorkerSpec) (past : List SupervisorRecord) :
    SupervisorRecord → Prop
  | .shutdownSignalled => ∃ front id, past = front ++ [.criticalityApplied id] ∧
      (spec id).criticality = .critical
  | .healthReported name status => ∃ front id, past = front ++ [.criticalityApplied id] ∧
      name = (spec id).name ∧
      ((spec id).criticality = .essential ∧ status = .unhealthy ∨
        (spec id).criticality = .optional ∧ status = .degraded)
  | _ => True

section Records

variable {past before : List SupervisorRecord} {id : WorkerId} {spec : WorkerSpec}
  {name : String} {run : Nat} {cancelled hasFailed : Bool} {outcome : SupervisorOutcome}
  {attempts : UInt32}

theorem escalation_spawn :
    Every (EscalationJustified id spec) (past ++ spawnRecords id name run cancelled) ↔
      Every (EscalationJustified id spec) past ∧ .criticalityApplied id ∉ past := by
  simp [spawnRecords, every_append, every_cons, EscalationJustified]

theorem escalation_judge :
    Every (EscalationJustified id spec) (past ++ judgeRecords id spec run outcome attempts) ↔
      Every (EscalationJustified id spec) past := by
  cases outcome <;>
    simp [judgeRecords, SupervisorOutcome.hasFailed, every_append, every_cons, EscalationJustified]

/-- Retiring a worker after a failure applies its criticality. -/
theorem escalation_retire :
    Every (EscalationJustified id spec) (past ++ retireRecords id name hasFailed) ↔
      Every (EscalationJustified id spec) past ∧ (hasFailed = true →
        ∃ failures, latestConsult past = some (true, failures) ∧
          spec.restart.shouldRestart true failures = false) := by
  have hLatest : latestConsult (past ++
      [SupervisorRecord.stateSet id .stopped, .event (.stopped id name)]) = latestConsult past := by
    simp only [latestConsult, List.foldl_append, List.foldl_cons, List.foldl_nil]
  cases hasFailed <;> simp [retireRecords, every_append, every_cons, EscalationJustified, hLatest]

theorem escalation_close {state : WorkerState} {event : WorkerLifecycleEvent} :
    Every (EscalationJustified id spec)
        (past ++ [SupervisorRecord.stateSet id state, .event event]) ↔
      Every (EscalationJustified id spec) past := by
  simp [every_append, every_cons, EscalationJustified]

@[simp] theorem latestConsult_judge :
    latestConsult (past ++ judgeRecords id spec run outcome attempts) =
      some (outcome.hasFailed, attempts) := by
  cases outcome <;> simp [latestConsult, judgeRecords, SupervisorOutcome.hasFailed]

theorem not_applied_judge :
    .criticalityApplied id ∉ judgeRecords id spec run outcome attempts := by
  cases outcome <;> simp [judgeRecords, SupervisorOutcome.hasFailed]

/-- A lawful worker was not escalated before its latest spawn. -/
theorem not_applied_of_spawn
    (h : Every (EscalationJustified id spec) (before ++ spawnRecords id name run cancelled)) :
    .criticalityApplied id ∉ before ++ spawnRecords id name run cancelled := by
  rw [List.mem_append, not_or]
  exact ⟨(escalation_spawn.mp h).2, by simp [spawnRecords]⟩

end Records

/-- A failure suppresses the restart if it leaves the breaker open. -/
theorem Life.judge_suppressed {l : Life} {id : WorkerId} {spec : WorkerSpec} {run : Nat}
    {outcome : SupervisorOutcome} {attempts : UInt32} {now : Instant}
    (hFailed : outcome.hasFailed = true) :
    (l.judge id spec run outcome attempts now).Suppressed ↔
      ∃ b, l.breaker = some b ∧ (b.recordFailure now).state = .opened := by
  simp [Suppressed, judge, hFailed, CircuitBreaker.record]

namespace Supervisor

variable {T : TaskIds} {s s' : Supervisor} {i : WorkerId}

/-- No outcome opens a breaker while the policy still allows a restart, and no tick
half-opens one. -/
def EscalatesLast (s : Supervisor) (label : SupervisorLabel) (i : WorkerId) : Prop :=
  match label with
  | .join run wall now => ∀ task outcome, s.findTask run = some task → task.worker = i →
      task.outcome = some outcome → outcome.hasFailed = true →
      (s.worker i).spec.restart.shouldRestart true ((s.worker i).attemptsAfter true wall) = true →
      ∀ b, (s.worker i).circuit = some b → (b.recordFailure now).state ≠ .opened
  | .tick _ nows _ => ¬ s.HalfOpens nows i
  | _ => True

theorem settled_escalation {spec : WorkerSpec} {run : Nat} {outcome : SupervisorOutcome}
    {attempts : UInt32} {now : Instant} {l : Life} {before : List SupervisorRecord}
    {cancelled : Bool} (hLaw : Every (EscalationJustified i spec) l.trail)
    (hTrail : l.trail = before ++ spawnRecords i spec.name run cancelled)
    (hSettled : Settled s' i spec outcome.hasFailed (l.judge i spec run outcome attempts now)) :
    Every (EscalationJustified i spec) (s'.life i).trail ↔
      (outcome.hasFailed = true → spec.restart.shouldRestart true attempts = true →
        ¬ (l.judge i spec run outcome attempts now).Suppressed) := by
  have hJudged : Every (EscalationJustified i spec) (l.judge i spec run outcome attempts now).trail :=
    escalation_judge.mpr hLaw
  cases hSettled with
  | retired hRefused hPhase hLife =>
      rw [hLife, Life.retire, Life.add, escalation_retire]
      refine (and_iff_right hJudged).trans (forall_congr' fun hFailed => ?_)
      have hAsked : latestConsult (l.judge i spec run outcome attempts now).trail =
          some (true, attempts) := by
        rw [Life.judge, Life.add, latestConsult_judge, hFailed]
      rw [hFailed] at hRefused
      constructor
      · rintro ⟨failures, hLatest, hRefusal⟩ hAllowed
        rw [hAsked, Option.some.injEq, Prod.mk.injEq] at hLatest
        rw [← hLatest.2, hAllowed] at hRefusal
        cases hRefusal
      · intro hCond
        exact ⟨attempts, hAsked, Bool.eq_false_iff.mpr fun hAllowed =>
          hRefused ⟨hAllowed, hCond hAllowed⟩⟩
  | waiting hAllowed hClosed hDelay hPhase hLife =>
      rw [hLife]
      exact iff_of_true (every_concat.mpr ⟨hJudged, trivial⟩) fun _ _ => hClosed
  | restarted hAllowed hClosed hDelay hPhase hLife =>
      rw [hLife]
      refine iff_of_true (escalation_spawn.mpr
        ⟨every_concat.mpr ⟨every_concat.mpr ⟨hJudged, trivial⟩, trivial⟩, ?_⟩) fun _ _ => hClosed
      have hNot : .criticalityApplied i ∉ l.trail := by
        rw [hTrail] at hLaw ⊢
        exact not_applied_of_spawn hLaw
      simp [Life.wait, Life.add, Life.judge, hNot, not_applied_judge]

theorem escalatesLast_decides :
    Decides (fun id spec => EscalationJustified id spec) EscalatesLast := by
  intro s s' label i hAudited hMem hStep hLaw
  have hStands := hAudited.stands i hMem
  cases hStep with
  | begun hFrom hTo hLife =>
      rw [Stands, hFrom] at hStands
      cases hStands with
      | fresh _ _ hTrail =>
          rw [hLife]
          refine iff_of_true (escalation_spawn.mpr ⟨hLaw, ?_⟩) trivial
          rw [hTrail]
          exact fun hIn => by cases hIn
  | ticked hKeep hFrom hTo hLife =>
      rw [hLife]
      exact iff_of_true hLaw fun hHalf => hKeep (mem_closedToHalfOpen.mpr ⟨hMem, hHalf⟩)
  | tried hHalf hFrom hTo hLife =>
      have hOpen := closedToHalfOpen_suppressed hHalf
      obtain ⟨_, _, hTrail, hFailed⟩ := hStands.rests hAudited.books hMem hFrom hOpen
      refine iff_of_false (fun h => ?_) fun hCond => hCond (mem_closedToHalfOpen.mp hHalf).2
      rw [hLife] at h
      apply (escalation_spawn.mp h).2
      rw [Life.tick, hTrail, hFailed hOpen]
      simp [retireRecords]
  | @settled run wall now task outcome hFrom hTask hOwner hOutcome hSettled =>
      obtain ⟨-, -, before, cancelled, hTrail⟩ := hStands.running_of_task hFrom hTask hOwner
      have hJoined : Every (EscalationJustified i (s.worker i).spec) ((s.life i).join run).trail :=
        hLaw
      apply (settled_escalation hJoined hTrail hSettled).trans
      constructor
      · intro hCond other ending hOther hIts hEnding hFailed hAllowed b hBreaker hOpened
        obtain rfl := Option.some.inj (hTask.symm.trans hOther)
        obtain rfl := Option.some.inj (hOutcome.symm.trans hEnding)
        rw [hFailed] at hCond
        exact hCond rfl hAllowed ((Life.judge_suppressed hFailed).mpr ⟨b, hBreaker, hOpened⟩)
      · intro hCond hFailed hAllowed hSuppressed
        obtain ⟨b, hBreaker, hOpened⟩ := (Life.judge_suppressed hFailed).mp hSuppressed
        rw [hFailed] at hAllowed
        exact hCond task outcome hTask hOwner hOutcome hFailed hAllowed b hBreaker hOpened
  | resumed hFrom hTo hLife =>
      obtain ⟨_, _, hTrail, _, _⟩ := hStands.waits hFrom
      rw [hLife]
      refine iff_of_true (escalation_spawn.mpr ⟨every_concat.mpr ⟨hLaw, trivial⟩, ?_⟩) trivial
      have hEarlier := hLaw
      rw [hTrail, judgedTrail] at hEarlier
      have hNot := not_applied_of_spawn (escalation_judge.mp (every_concat.mp hEarlier).1)
      rw [Life.add, hTrail, judgedTrail]
      simp only [List.mem_append, not_or] at hNot ⊢
      refine ⟨⟨⟨hNot, not_applied_judge⟩, ?_⟩, ?_⟩ <;> simp
  | stopping hFrom hTo hLife =>
      rw [hLife]
      exact iff_of_true (escalation_close.mpr hLaw) trivial
  | joinedLate hFrom hTo hLife =>
      rw [hLife]
      exact iff_of_true hLaw trivial
  | stopped hFrom hTo hLife =>
      rw [hLife]
      exact iff_of_true (escalation_close.mpr hLaw) trivial
  | spared hSpares hStage hLife =>
      rw [hLife]
      apply iff_of_true hLaw
      cases label with
      | join run wall now =>
          intro task outcome hTask hOwner
          exact absurd hOwner (hSpares task hTask)
      | tick => exact hSpares.elim
      | _ => trivial

/-- Effects are applied for a worker of the registered criticality. -/
def Effects (s : Supervisor) : Prop := Every (AppliedFor fun i => (s.worker i).spec) s.history

theorem Effects.of_specs (h : s.Effects) (hHistory : s'.history = s.history)
    (hSpec : ∀ i, (s'.worker i).spec = (s.worker i).spec) : s'.Effects := by
  rw [Effects, hHistory, funext hSpec]
  exact h

theorem Effects.cancelWorkerToken (h : s.Effects) (i : WorkerId) :
    (s.cancelWorkerToken i).Effects :=
  h.of_specs rfl (congrFun (congrArg Frame.spec frame_cancelWorkerToken))

theorem Effects.log (h : s.Effects) {record : SupervisorRecord}
    (hRecord : record ≠ .shutdownSignalled ∧ ∀ name status, record ≠ .healthReported name status) :
    (s.log record).Effects := by
  refine every_concat.mpr ⟨h, ?_⟩
  cases record with
  | shutdownSignalled => exact absurd rfl hRecord.1
  | healthReported name status => exact absurd rfl (hRecord.2 name status)
  | _ => trivial

theorem effects_durable : Durable T Effects where
  workers hCells h := h.of_specs rfl fun i => (hCells i).spec
  log {_ record} hPlain h := h.log (by cases record <;> first | exact hPlain.elim | simp)
  tasks h := h
  control h := h
  spawn _ h := Effects.log h (by simp)
  announce {s id run outcome} h := by
    have hEvent : ((s.log (.handled id run outcome)).emit
        (outcome.event id (s.worker id).spec.name)).Effects :=
      (h.log (by simp)).log (by simp)
    unfold announceOutcome
    simp only []
    split_ifs
    · exact hEvent.log (by simp)
    · exact hEvent
  restart h := (h.log (by simp)).log (by simp)
  escalate {s id} h := by
    have hApplied : (s.log (.criticalityApplied id)).Effects := h.log (by simp)
    cases hCriticality : (s.worker id).spec.criticality with
    | critical => exact every_concat.mpr ⟨hApplied, _, id, rfl, hCriticality⟩
    | essential =>
        exact every_concat.mpr ⟨hApplied, _, id, rfl, rfl, Or.inl ⟨hCriticality, rfl⟩⟩
    | optional =>
        exact every_concat.mpr ⟨hApplied, _, id, rfl, rfl, Or.inr ⟨hCriticality, rfl⟩⟩
    | background => exact hApplied
  timeout {s timeout} h := by
    have hEvent : (s.emit (.timeout timeout.id timeout.name timeout.silentFor)).Effects :=
      h.log (by simp)
    unfold reportTimeout
    simp only []
    split_ifs
    · exact hEvent.cancelWorkerToken _
    · exact hEvent
  stopping _ h := h.cancelWorkerToken _
  heartbeat {s id run nanos} _ h := by
    refine (h.of_specs ?_ ?_).log (by simp)
    · rfl
    · exact congrFun (congrArg Frame.spec (frame_modifyWorker rfl rfl))
  cancel h := Effects.log h (by simp)
  cancelWorker _ h := (h.cancelWorkerToken _).log (by simp)

/-- Criticality is applied only where the retry budget is exhausted. -/
structure EscalatesJustly (s : Supervisor) : Prop where
  effects : Every (AppliedFor fun i => (s.worker i).spec) s.history
  workers : ∀ i ∈ s.ids, Every (EscalationJustified i (s.worker i).spec) (trail i s.history)

end Supervisor

/-- The runs in which criticality is applied only to workers whose retry budget is
exhausted, for the last time, are exactly the runs in which no failure that the
policy forgives leaves a breaker open and no tick half-opens a breaker. -/
theorem escalation_justified_iff (T : TaskIds) (roster : Roster) (labels : List SupervisorLabel)
    (finish : Supervisor) :
    Runs (Within (SupervisorStep T) Supervisor.EscalatesJustly) (.new roster) labels finish ↔
      Runs (Restrict (SupervisorStep T) fun s label => ∀ i ∈ s.ids, s.EscalatesLast label i)
        (.new roster) labels finish := by
  have hStart : (Supervisor.new roster).Effects := every_nil
  refine runs_within_iff_restrict Supervisor.EscalatesJustly
    (fun s => s.Audited ∧ s.Effects) ⟨hStart, Supervisor.lawful_new _ roster⟩
    ⟨Supervisor.audited_new roster, hStart⟩ (fun s label s' hBase hStep =>
      ⟨hBase.1.step hStep, Supervisor.effects_durable.step hBase.2 hStep⟩) ?_
  intro s label s' hBase hGood hStep
  have hDecided := Supervisor.escalatesLast_decides.lawful_iff hBase.1 hGood.workers hStep
  exact ⟨fun h => hDecided.mp h.workers,
    fun hCond => ⟨Supervisor.effects_durable.step hBase.2 hStep, hDecided.mpr hCond⟩⟩

/-- A critical worker that is restarted after every failure, with a breaker that opens
at the first for a second. -/
def WorkerSpec.tripping : WorkerSpec :=
  { WorkerSpec.new "alpha" with
    criticality := .critical
    circuit := some ⟨1, .fromSecs 60, .fromSecs 1⟩ }

/-- The first failure of a critical worker opens its breaker: the kernel is told to
shut down although the policy would restart the worker. -/
theorem tripped_worker_escalated :
    ¬ ∀ s, Reachable (SupervisorStep .counting) (.new (.single .tripping .sync)) s →
      s.EscalatesJustly := by
  intro hClaim
  obtain ⟨s, hRun, hMem, hSpec, hApplied, hAsked⟩ : ∃ s : Supervisor,
      replay (Supervisor.exec .counting) (.new (.single .tripping .sync))
        [.start, .finish 0 (.err ⟨"broken"⟩), .join 0 (some 1) 0] = some s ∧
      1 ∈ s.ids ∧ (s.worker 1).spec = .tripping ∧
      (trail 1 s.history)[8]? = some (.criticalityApplied 1) ∧
      latestConsult ((trail 1 s.history).take 8) = some (true, 1) :=
    ⟨_, rfl, by decide, rfl, rfl, rfl⟩
  obtain ⟨failures, hLatest, hRefused⟩ :=
    ((hClaim s (runs_of_replay hRun).reachable).workers 1 hMem).of_getElem hApplied
  rw [hAsked, Option.some.injEq, Prod.mk.injEq] at hLatest
  rw [hSpec, ← hLatest.2] at hRefused
  cases hRefused

end ServiceKernel
