import ServiceKernel.Health.Replay
import ServiceKernel.Worker.CircuitReports

/-! The health mark of a worker that failed, once its circuit has closed again. The mark is
set when a failure retires the worker, and no step of the supervisor takes it back. -/
namespace ServiceKernel

open Execution Interleaving

/-- What the supervisor has reported to the health registry, in order. -/
def healthCalls (history : List SupervisorRecord) : List (String × HealthStatus) :=
  history.filterMap fun record => match record with
    | .healthReported name status => some (name, status)
    | _ => none

/-- The entry of the registry under a name, as far as the supervisor has set it. -/
def healthEntry (name : String) (history : List SupervisorRecord) : Option HealthStatus :=
  latestOf (healthCalls history) name

/-- A failure of the worker is handled. -/
def SupervisorRecord.isFailureOf (i : WorkerId) : SupervisorRecord → Bool
  | .handled id _ outcome => id = i && outcome.hasFailed
  | _ => false

/-- The worker's circuit was announced closed, and the worker has not failed since. -/
def Recovered (i : WorkerId) (history : List SupervisorRecord) : Prop :=
  ∃ before after name, history = before ++ .event (.circuitClosed i name) :: after ∧
    ∀ record ∈ after, record.isFailureOf i = false

section Calls

variable {calls : List (String × HealthStatus)} {history : List SupervisorRecord} {name : String}
  {status : HealthStatus}

/-- A name that was reported with one status only holds it. -/
theorem latestOf_eq (hOnly : ∀ call ∈ calls, call.1 = name → call.2 = status)
    (hMem : (name, status) ∈ calls) : latestOf calls name = some status := by
  induction calls using List.reverseRecOn with
  | nil => cases hMem
  | append_singleton calls call ih =>
      rw [latestOf_concat]
      by_cases hName : name = call.1
      · have hStatus : call.2 = status := hOnly call (by simp) hName.symm
        rw [if_pos hName, hStatus]
      · rw [if_neg hName]
        apply ih (fun other hIn => hOnly other (List.mem_append_left _ hIn))
        rcases List.mem_append.mp hMem with hIn | hLast
        · exact hIn
        · obtain rfl := List.mem_singleton.mp hLast
          exact absurd rfl hName

theorem mem_healthCalls : (name, status) ∈ healthCalls history ↔
    .healthReported name status ∈ history.filter (·.isReport) := by
  rw [healthCalls, List.mem_filterMap, List.mem_filter]
  constructor
  · rintro ⟨record, hMem, hCall⟩
    cases record with
    | healthReported other reported =>
        obtain ⟨rfl, rfl⟩ := Prod.mk.inj (Option.some.inj hCall)
        exact ⟨hMem, rfl⟩
    | _ => cases hCall
  · rintro ⟨hMem, -⟩
    exact ⟨_, hMem, rfl⟩

end Calls

theorem Criticality.mark_ne_healthy {criticality : Criticality} {status : HealthStatus}
    (h : criticality.mark = some status) : status ≠ .healthy := by
  cases criticality <;> simp only [mark, Option.some.injEq, reduceCtorEq] at h <;> subst h <;> decide

namespace RegisteredWorker

variable {r : RegisteredWorker} {id i : WorkerId} {hasFailed : Bool} {wall : Option Nat} {now : Instant}
  {name : String} {status : HealthStatus}

/-- What is reported to the registry is the mark of the worker, under its name. -/
theorem healthReported_mem (h : .healthReported name status ∈ r.reported id hasFailed wall now) :
    name = r.spec.name ∧ r.spec.criticality.mark = some status := by
  simp only [reported, List.mem_append, List.mem_map, reduceCtorEq, and_false, exists_false,
    false_or, SupervisorRecord.healthReported.injEq] at h
  obtain ⟨marked, hMem, rfl, rfl⟩ := h
  rw [Option.mem_toList, RegisteredWorker.marked] at hMem
  split_ifs at hMem with hRetired
  exact ⟨rfl, hMem⟩

/-- An announced closing is the worker's own and ends a trial. -/
theorem circuitClosed_mem
    (h : .event (.circuitClosed i name) ∈ r.reported id hasFailed wall now) :
    i = id ∧ ∃ b, r.circuit = some b ∧ b.state = .halfOpen := by
  simp only [reported, List.mem_append, List.mem_map, reduceCtorEq, and_false, exists_false,
    or_false, SupervisorRecord.event.injEq, exists_eq_right, Option.mem_toList] at h
  obtain ⟨b, hCircuit, hMove⟩ := Option.bind_eq_some_iff.mp h
  cases hFrom : b.state with
  | halfOpen =>
      refine ⟨?_, b, hCircuit, hFrom⟩
      rw [hFrom] at hMove
      cases hTo : (b.record hasFailed now).state <;> rw [hTo] at hMove <;> cases hMove
      rfl
  | _ =>
      rw [hFrom] at hMove
      cases hTo : (b.record hasFailed now).state <;> rw [hTo] at hMove <;> cases hMove

/-- An outcome that does not leave the breaker closed marks the worker. -/
theorem healthReported_of_opened {b : CircuitBreaker} (hMark : r.spec.criticality.mark = some status)
    (hCircuit : r.circuit = some b) (hAfter : (b.record hasFailed now).state ≠ .closed) :
    .healthReported r.spec.name status ∈ r.reported id hasFailed wall now := by
  cases hasFailed with
  | false => exact absurd rfl hAfter
  | true =>
      have hOpened : (b.record true now).state = .opened := by
        cases hState : (b.record true now).state with
        | closed => exact absurd hState hAfter
        | opened => rfl
        | halfOpen => exact absurd hState CircuitBreaker.record_ne_halfOpen
      have hMarked : r.marked true wall now = some status := by
        simp [marked, restarts, opens, hCircuit, hOpened, hMark]
      rw [reported, hMarked]
      simp

end RegisteredWorker

namespace Supervisor

variable {T : TaskIds} {s s' : Supervisor} {i : WorkerId} {label : SupervisorLabel}

theorem mem_reportedBy {record : SupervisorRecord} : record ∈ s.reportedBy label ↔
    ∃ run wall now task outcome, label = .join run wall now ∧ s.findTask run = some task ∧
      task.outcome = some outcome ∧
      record ∈ (s.worker task.worker).reported task.worker outcome.hasFailed wall now := by
  constructor
  · intro h
    cases label with
    | join run wall now =>
        cases hTask : s.findTask run with
        | none => simp [reportedBy, hTask] at h
        | some task =>
            cases hOutcome : task.outcome with
            | none => simp [reportedBy, hTask, hOutcome] at h
            | some outcome =>
                simp only [reportedBy, hTask, Option.bind_some, hOutcome, Option.map_some,
                  Option.getD_some] at h
                exact ⟨run, wall, now, task, outcome, rfl, hTask, hOutcome, h⟩
    | _ => cases h
  · rintro ⟨run, wall, now, task, outcome, rfl, hTask, hOutcome, h⟩
    simpa [reportedBy, hTask, hOutcome] using h

/-- A worker whose breaker is open, on trial or was closed again has been marked, and the
registry holds nothing but the marks of workers. -/
structure Marked (s : Supervisor) : Prop where
  tripped : ∀ i ∈ s.ids, ∀ status, (s.worker i).spec.criticality.mark = some status →
    ∀ b, (s.life i).breaker = some b → b.state ≠ .closed →
      .healthReported (s.worker i).spec.name status ∈ s.reports
  closed : ∀ i ∈ s.ids, ∀ status, (s.worker i).spec.criticality.mark = some status →
    ∀ name, .event (.circuitClosed i name) ∈ s.reports →
      .healthReported (s.worker i).spec.name status ∈ s.reports
  owned : ∀ name status, .healthReported name status ∈ s.reports →
    ∃ i ∈ s.ids, name = (s.worker i).spec.name ∧
      (s.worker i).spec.criticality.mark = some status

theorem marked_new (roster : Roster) : (new roster).Marked where
  tripped i _ _ _ b hBreaker hState := by
    simp only [life, new, RegisteredWorker.register, Option.map_eq_some_iff] at hBreaker
    obtain ⟨policy, -, rfl⟩ := hBreaker
    exact absurd rfl hState
  closed _ _ _ _ _ hMem := by cases hMem
  owned _ _ hMem := by cases hMem

/-- A breaker that a step leaves open or on trial has been marked before or is now. -/
theorem Marked.tripped_step (h : s.Marked) (hBooks : Books s) (hStep : SupervisorStep T s label s')
    (hMem : i ∈ s.ids) {status : HealthStatus}
    (hMark : (s.worker i).spec.criticality.mark = some status) {b : CircuitBreaker}
    (hNew : (s'.life i).breaker = some b) (hState : b.state ≠ .closed) :
    .healthReported (s.worker i).spec.name status ∈ s.reports ++ s.reportedBy label := by
  have hBefore : ∀ old, (s.life i).breaker = some old → old.state ≠ .closed →
      .healthReported (s.worker i).spec.name status ∈ s.reports ++ s.reportedBy label :=
    fun old hOld hOpen => List.mem_append_left _ (h.tripped i hMem status hMark old hOld hOpen)
  cases lifeStep_of_step hBooks hStep hMem with
  | @settled run wall now task outcome hFrom hTask hOwner hOutcome hSettled =>
      rw [hSettled.cells.2] at hNew
      obtain ⟨old, hOld, rfl⟩ := Option.map_eq_some_iff.mp hNew
      refine List.mem_append_right _ (mem_reportedBy.mpr ?_)
      refine ⟨run, wall, now, task, outcome, rfl, hTask, hOutcome, ?_⟩
      rw [hOwner]
      exact RegisteredWorker.healthReported_of_opened hMark hOld hState
  | ticked _ _ _ hLife | tried _ _ _ hLife =>
      rw [hLife] at hNew
      obtain ⟨old, hOld, rfl⟩ := Option.map_eq_some_iff.mp hNew
      refine hBefore old hOld fun hClosed => hState ?_
      rw [CircuitBreaker.tick_of_ne_opened (by rw [hClosed]; decide), hClosed]
  | begun _ _ hLife | resumed _ _ hLife | stopping _ _ hLife | joinedLate _ _ hLife
  | stopped _ _ hLife | spared _ _ hLife =>
      rw [hLife] at hNew
      exact hBefore b hNew hState

theorem marked_step (hBooks : Books s) (h : s.Marked) (hStep : SupervisorStep T s label s') :
    s'.Marked := by
  have hSteady := steady_step hBooks hStep
  have hReports := reports_of_step hBooks hStep
  refine ⟨?_, ?_, ?_⟩
  · intro i hMem status hMark b hNew hState
    rw [hSteady.ids] at hMem
    rw [hSteady.spec] at hMark ⊢
    rw [hReports]
    exact h.tripped_step hBooks hStep hMem hMark hNew hState
  · intro i hMem status hMark name hClosed
    rw [hSteady.ids] at hMem
    rw [hSteady.spec] at hMark ⊢
    rw [hReports] at hClosed ⊢
    apply List.mem_append_left
    rcases List.mem_append.mp hClosed with hOld | hNew
    · exact h.closed i hMem status hMark name hOld
    · -- The trial that ends here was preceded by a failure.
      obtain ⟨run, wall, now, task, outcome, -, -, -, hReported⟩ := mem_reportedBy.mp hNew
      obtain ⟨rfl, b, hCircuit, hHalf⟩ := RegisteredWorker.circuitClosed_mem hReported
      exact h.tripped task.worker hMem status hMark b hCircuit (by rw [hHalf]; decide)
  · intro name status hMem
    rw [hReports] at hMem
    rw [hSteady.ids]
    simp only [hSteady.spec]
    rcases List.mem_append.mp hMem with hOld | hNew
    · exact h.owned name status hOld
    · obtain ⟨run, wall, now, task, outcome, -, hTask, -, hReported⟩ := mem_reportedBy.mp hNew
      exact ⟨task.worker, hBooks.consistent.known task (findTask_mem hTask).1,
        RegisteredWorker.healthReported_mem hReported⟩

theorem marked_of_reachable {roster : Roster} (reach : Reachable (SupervisorStep T) (new roster) s) :
    s.Marked := by
  refine (reach.invariant (fun s => Supervisor.Books s ∧ s.Marked)
    ⟨books_new roster, marked_new roster⟩ fun s label s' h hStep => ?_).2
  exact ⟨books_step h.1 hStep, marked_step h.1 h.2 hStep⟩

end Supervisor

/-- Where the names of the workers are distinct and nobody else reports under them, a worker
that has recovered still holds the mark of its failure, in the registry and in its aggregate. -/
theorem mark_outlives_recovery (T : TaskIds) (roster : Roster)
    (hNames : ∀ i ∈ roster.ids, ∀ j ∈ roster.ids, (roster.spec i).name = (roster.spec j).name → i = j)
    (s : Supervisor) (reach : Reachable (SupervisorStep T) (.new roster) s) (i : WorkerId)
    (hMem : i ∈ roster.ids) (status : HealthStatus)
    (hMark : (roster.spec i).criticality.mark = some status) (hRecovered : Recovered i s.history) :
    healthEntry (roster.spec i).name s.history = some status ∧ status ≠ .healthy ∧
      ∀ (Thread : Type) (w : World Thread HealthInner HealthRecord),
        ReportedInTurn (healthCalls s.history) w →
        w.shared.subsystems.lookup (roster.spec i).name = some status ∧
          status ≤ w.shared.aggregate.load := by
  obtain ⟨hIds, hSpec⟩ := Supervisor.registered_of_reachable reach
  have hMarked := Supervisor.marked_of_reachable reach
  have hEntry : healthEntry (roster.spec i).name s.history = some status := by
    apply latestOf_eq
    · intro call hCall hName
      obtain ⟨j, hIn, hOwner, hOther⟩ := hMarked.owned call.1 call.2 (mem_healthCalls.mp hCall)
      rw [hIds] at hIn
      rw [hSpec] at hOwner hOther
      obtain rfl : i = j := hNames i hMem j hIn (hName.symm.trans hOwner)
      exact Option.some.inj (hOther.symm.trans hMark)
    · obtain ⟨before, after, name, hHistory, -⟩ := hRecovered
      have hClosed : .event (.circuitClosed i name) ∈ s.reports := by
        rw [Supervisor.reports, List.mem_filter, hHistory]
        exact ⟨List.mem_append_right _ (List.mem_cons_self ..), rfl⟩
      rw [mem_healthCalls, ← hSpec]
      exact hMarked.closed i (hIds ▸ hMem) status (by rw [hSpec, hMark]) name hClosed
  refine ⟨hEntry, Criticality.mark_ne_healthy hMark, fun Thread w hReported => ?_⟩
  have hStored := (hReported.stored (roster.spec i).name).trans hEntry
  exact ⟨hStored, hReported.replay.aggregate.1 _ status hEntry⟩

/-- An optional worker whose breaker opens at the first failure for a second. -/
def WorkerSpec.fragile : WorkerSpec :=
  { WorkerSpec.new "alpha" with circuit := some ⟨1, .fromSecs 60, .fromSecs 1⟩ }

/-- The fragile worker fails, and its trial run a second later succeeds. -/
def failAndRecover : List SupervisorLabel :=
  [.start, .finish 0 (.err ⟨"disk full"⟩), .join 0 (some 5) 0,
    .tick (some 6) (fun _ => 1000000000) 1000000000, .finish 1 .ok, .join 1 (some 7) 1000000000]

/-- The breaker of the fragile worker has closed, and the worker has not failed since. -/
theorem exists_fragile_recovered : ∃ s,
    Reachable (SupervisorStep .counting) (.new (.single .fragile .sync)) s ∧
    (s.worker 1).circuit.map CircuitBreaker.state = some .closed ∧ Recovered 1 s.history ∧
    healthCalls s.history = [("alpha", .degraded)] := by
  obtain ⟨s, hRun, hClosed, hEvent, hAfter, hCalls⟩ : ∃ s : Supervisor,
      replay (Supervisor.exec .counting) (.new (.single .fragile .sync)) failAndRecover = some s ∧
      (s.worker 1).circuit.map CircuitBreaker.state = some .closed ∧
      s.history = s.history.take 22 ++ .event (.circuitClosed 1 "alpha") :: s.history.drop 23 ∧
      (∀ record ∈ s.history.drop 23, record.isFailureOf 1 = false) ∧
      healthCalls s.history = [("alpha", .degraded)] := ⟨_, rfl, rfl, rfl, by decide, rfl⟩
  exact ⟨s, (runs_of_replay hRun).reachable, hClosed, ⟨_, _, _, hEvent, hAfter⟩, hCalls⟩

theorem mark_outlives_recovery_fragile : ∃ s,
    Reachable (SupervisorStep .counting) (.new (.single .fragile .sync)) s ∧
    (s.worker 1).circuit.map CircuitBreaker.state = some .closed ∧
    healthEntry "alpha" s.history = some .degraded := by
  obtain ⟨s, hReach, hClosed, hRecovered, -⟩ := exists_fragile_recovered
  have hNames : ∀ i ∈ (Roster.single .fragile .sync).ids, ∀ j ∈ (Roster.single .fragile .sync).ids,
      ((Roster.single .fragile .sync).spec i).name = ((Roster.single .fragile .sync).spec j).name →
        i = j := by decide
  exact ⟨s, hReach, hClosed, (mark_outlives_recovery .counting _ hNames s hReach 1 (by decide)
    .degraded rfl hRecovered).1⟩

/-- The trial of the fragile worker succeeds, and its entry still reads `Degraded`. -/
theorem recovery_leaves_degraded : ¬ ∀ (T : TaskIds) (roster : Roster) (s : Supervisor)
    (i : WorkerId), (∀ i ∈ roster.ids, ∀ j ∈ roster.ids,
      (roster.spec i).name = (roster.spec j).name → i = j) →
    Reachable (SupervisorStep T) (.new roster) s → i ∈ roster.ids →
    (roster.spec i).criticality.mark ≠ none → Recovered i s.history →
    healthEntry (roster.spec i).name s.history = some .healthy := by
  intro hClaim
  obtain ⟨s, hReach, -, hRecovered, hCalls⟩ := exists_fragile_recovered
  have hHealthy := hClaim .counting (.single .fragile .sync) s 1 (by decide) hReach (by decide)
    (by decide) hRecovered
  rw [healthEntry, hCalls] at hHealthy
  exact absurd hHealthy (by decide)

end ServiceKernel
