import Mathlib.Data.List.Induction
import ServiceKernel.Worker.StoppedState

/-! Whether the restart policy stands behind every task that is spawned for a worker
after its first. -/
namespace ServiceKernel

open Execution

/-- The run spawned last. -/
def latestRun (past : List SupervisorRecord) : Option Nat :=
  past.foldl (fun latest record => match record with
    | .spawned _ run _ => some run
    | _ => latest) none

/-- The records since the latest spawn. -/
def sinceSpawn (past : List SupervisorRecord) : List SupervisorRecord :=
  past.foldl (fun since record => match record with
    | .spawned _ _ _ => []
    | _ => since ++ [record]) []

/-- What the restart policy has to say for a spawn. -/
structure Warranted (id : WorkerId) (policy : RestartPolicy) (past : List SupervisorRecord) :
    Prop where
  /-- The previous run had an outcome for which the policy allowed a restart. -/
  allowed : ∀ run, latestRun past = some run → ∃ outcome failures answer,
    .handled id run outcome ∈ sinceSpawn past ∧
    .consulted id outcome.hasFailed failures answer ∈ sinceSpawn past ∧
    policy.shouldRestart outcome.hasFailed failures = true
  /-- A worker that is never restarted is spawned for the first time. -/
  once : policy = .never → latestRun past = none
  /-- The retry budget was never exhausted. -/
  budget : ∀ retries window, policy = .maxRetries retries window →
    ∀ hasFailed failures answer, .consulted id hasFailed failures answer ∈ past → failures < retries

/-- Every spawn is warranted. -/
def SpawnsWarranted (id : WorkerId) (spec : WorkerSpec) (past : List SupervisorRecord) :
    SupervisorRecord → Prop
  | .spawned _ _ _ => Warranted id spec.restart past
  | _ => True

/-- Records that are no part of a run's outcome. -/
def SupervisorRecord.Aside : SupervisorRecord → Prop
  | .spawned _ _ _ => False
  | .consulted _ _ _ _ => False
  | _ => True

section Records

variable {past before aside : List SupervisorRecord} {id : WorkerId} {spec : WorkerSpec}
  {name : String} {run : Nat} {cancelled hasFailed : Bool} {outcome : SupervisorOutcome}
  {attempts : UInt32}

/-- Only spawns have to be warranted. -/
theorem spawnsWarranted_aside (hAside : ∀ record ∈ aside, record.Aside) :
    Every (SpawnsWarranted id spec) (past ++ aside) ↔ Every (SpawnsWarranted id spec) past := by
  rw [every_append]
  apply and_iff_left
  intro front record back hSplit
  have hRecord : record.Aside := hAside record (by simp [hSplit])
  cases record with
  | spawned => exact hRecord.elim
  | _ => trivial

theorem spawnsWarranted_spawn :
    Every (SpawnsWarranted id spec) (past ++ spawnRecords id name run cancelled) ↔
      Every (SpawnsWarranted id spec) past ∧
        Warranted id spec.restart (past ++ [SupervisorRecord.stateSet id .starting]) := by
  simp [spawnRecords, every_append, every_cons, SpawnsWarranted]

theorem spawnsWarranted_judge :
    Every (SpawnsWarranted id spec) (past ++ judgeRecords id spec run outcome attempts) ↔
      Every (SpawnsWarranted id spec) past := by
  cases outcome <;>
    simp [judgeRecords, SupervisorOutcome.hasFailed, every_append, every_cons, SpawnsWarranted]

theorem latestRun_aside (hAside : ∀ record ∈ aside, record.Aside) :
    latestRun (past ++ aside) = latestRun past := by
  rw [latestRun, List.foldl_append]
  apply foldl_keeps (fun latest => latest = latestRun past) rfl
  intro latest record hMem hSame
  have hRecord := hAside record hMem
  cases record with
  | spawned => exact hRecord.elim
  | _ => exact hSame

theorem sinceSpawn_aside (hAside : ∀ record ∈ aside, record.Aside) :
    sinceSpawn (past ++ aside) = sinceSpawn past ++ aside := by
  induction aside using List.reverseRecOn with
  | nil => simp
  | append_singleton aside record ih =>
      have hRecord := hAside record (by simp)
      have hRest := ih fun r hMem => hAside r (by simp [hMem])
      have hConcat : sinceSpawn (past ++ aside ++ [record]) =
          sinceSpawn (past ++ aside) ++ [record] := by
        rw [sinceSpawn, List.foldl_append, List.foldl_cons, List.foldl_nil]
        cases record with
        | spawned => exact hRecord.elim
        | _ => rfl
      rw [← List.append_assoc, hConcat, hRest, List.append_assoc]

@[simp] theorem latestRun_judged :
    latestRun (judgedTrail id spec before run cancelled outcome attempts) = some run := by
  cases outcome <;>
    simp [latestRun, judgedTrail, spawnRecords, judgeRecords, SupervisorOutcome.hasFailed]

@[simp] theorem sinceSpawn_judged :
    sinceSpawn (judgedTrail id spec before run cancelled outcome attempts) =
      [.stateSet id .running, .event (.started id spec.name)] ++
        judgeRecords id spec run outcome attempts := by
  cases outcome <;>
    simp [sinceSpawn, judgedTrail, spawnRecords, judgeRecords, SupervisorOutcome.hasFailed]

/-- A judged run was put before the policy once. -/
theorem consulted_mem_judge {i : WorkerId} {failures : UInt32} {answer : Bool}
    (h : .consulted i hasFailed failures answer ∈ judgeRecords id spec run outcome attempts) :
    hasFailed = outcome.hasFailed ∧ failures = attempts := by
  cases outcome <;> simp_all [judgeRecords, SupervisorOutcome.hasFailed]

theorem not_consulted_aside {i : WorkerId} {failures : UInt32} {answer : Bool}
    (hAside : ∀ record ∈ aside, record.Aside) : .consulted i hasFailed failures answer ∉ aside :=
  fun hMem => hAside _ hMem

theorem consulted_mem_judged {i : WorkerId} {failures : UInt32} {answer : Bool}
    (hAside : ∀ record ∈ aside, record.Aside)
    (h : .consulted i hasFailed failures answer ∈
      judgedTrail id spec before run cancelled outcome attempts ++ aside) :
    .consulted i hasFailed failures answer ∈ before ∨
      hasFailed = outcome.hasFailed ∧ failures = attempts := by
  simp only [judgedTrail, List.mem_append] at h
  rcases h with ((hBefore | hSpawn) | hJudge) | hIn
  · exact Or.inl hBefore
  · simp [spawnRecords] at hSpawn
  · exact Or.inr (consulted_mem_judge hJudge)
  · exact absurd hIn (not_consulted_aside hAside)

theorem retire_aside : ∀ record ∈ retireRecords id name hasFailed, record.Aside := by
  cases hasFailed <;> simp [retireRecords, SupervisorRecord.Aside]

/-- After a judged run, what warrants the next spawn is the policy's answer to it. -/
theorem warranted_iff
    (hLaw : Every (SpawnsWarranted id spec) (before ++ spawnRecords id spec.name run cancelled))
    (hAside : ∀ record ∈ aside, record.Aside) :
    Warranted id spec.restart (judgedTrail id spec before run cancelled outcome attempts ++ aside) ↔
      spec.restart.shouldRestart outcome.hasFailed attempts = true := by
  have hSince : sinceSpawn (judgedTrail id spec before run cancelled outcome attempts ++ aside) =
      [.stateSet id .running, .event (.started id spec.name)] ++
        judgeRecords id spec run outcome attempts ++ aside := by
    rw [sinceSpawn_aside hAside, sinceSpawn_judged]
  have hLatest : latestRun (judgedTrail id spec before run cancelled outcome attempts ++ aside) =
      some run := by
    rw [latestRun_aside hAside, latestRun_judged]
  constructor
  · intro h
    obtain ⟨other, failures, answer, -, hConsulted, hAllowed⟩ := h.allowed run hLatest
    rw [hSince] at hConsulted
    simp only [List.mem_append] at hConsulted
    rcases hConsulted with (hStart | hJudge) | hIn
    · simp at hStart
    · obtain ⟨hSame, rfl⟩ := consulted_mem_judge hJudge
      rw [← hSame]
      exact hAllowed
    · exact absurd hIn (not_consulted_aside hAside)
  · intro hAllowed
    refine ⟨fun latest hRun => ?_, fun hNever => ?_, fun retries window hPolicy => ?_⟩
    · obtain rfl := Option.some.inj (hLatest.symm.trans hRun)
      refine ⟨outcome, attempts, spec.restart.shouldRestart outcome.hasFailed attempts, ?_, ?_,
        hAllowed⟩
      · rw [hSince]
        simp [judgeRecords]
      · rw [hSince]
        simp [judgeRecords]
    · rw [hNever] at hAllowed
      cases hAllowed
    · intro hasFailed failures answer hMem
      rcases consulted_mem_judged hAside hMem with hBefore | ⟨-, rfl⟩
      · have hEarlier := (spawnsWarranted_spawn.mp hLaw).2
        exact hEarlier.budget retries window hPolicy hasFailed failures answer
          (List.mem_append_left _ hBefore)
      · rw [hPolicy, RestartPolicy.shouldRestart, Bool.and_eq_true, decide_eq_true_eq] at hAllowed
        exact hAllowed.2

end Records

namespace Supervisor

variable {s s' : Supervisor} {i : WorkerId}

/-- Every trial run is one that the restart policy would allow too. -/
def TrialAllowed (s : Supervisor) (label : SupervisorLabel) (i : WorkerId) : Prop :=
  match label with
  | .tick _ nows _ => s.HalfOpens nows i →
      (s.worker i).spec.restart.shouldRestart true (s.worker i).attempts = true
  | _ => True

theorem settled_warranted {spec : WorkerSpec} {run : Nat} {outcome : SupervisorOutcome}
    {attempts : UInt32} {now : Instant} {l : Life} {before : List SupervisorRecord}
    {cancelled : Bool} (hLaw : Every (SpawnsWarranted i spec) l.trail)
    (hTrail : l.trail = before ++ spawnRecords i spec.name run cancelled)
    (hSettled : Settled s' i spec outcome.hasFailed (l.judge i spec run outcome attempts now)) :
    Every (SpawnsWarranted i spec) (s'.life i).trail := by
  have hJudged : Every (SpawnsWarranted i spec) (l.judge i spec run outcome attempts now).trail :=
    spawnsWarranted_judge.mpr hLaw
  have hShape : (l.judge i spec run outcome attempts now).trail =
      judgedTrail i spec before run cancelled outcome attempts := by
    rw [Life.judge, Life.add, hTrail, judgedTrail]
  cases hSettled with
  | retired hRefused hPhase hLife =>
      rw [hLife]
      exact (spawnsWarranted_aside retire_aside).mpr hJudged
  | waiting hAllowed hClosed hDelay hPhase hLife =>
      rw [hLife]
      exact every_concat.mpr ⟨hJudged, trivial⟩
  | restarted hAllowed hClosed hDelay hPhase hLife =>
      rw [hLife]
      refine spawnsWarranted_spawn.mpr
        ⟨every_concat.mpr ⟨every_concat.mpr ⟨hJudged, trivial⟩, trivial⟩, ?_⟩
      simp only [Life.wait, Life.add, hShape, List.append_assoc]
      exact (warranted_iff (hTrail ▸ hLaw) (by simp [SupervisorRecord.Aside])).mpr hAllowed

theorem trialAllowed_decides :
    Decides (fun id spec => SpawnsWarranted id spec) TrialAllowed := by
  intro s s' label i hAudited hMem hStep hLaw
  have hStands := hAudited.stands i hMem
  cases hStep with
  | begun hFrom hTo hLife =>
      rw [Stands, hFrom] at hStands
      cases hStands with
      | fresh _ _ hTrail =>
          rw [hLife]
          refine iff_of_true (spawnsWarranted_spawn.mpr ⟨hLaw, ?_⟩) trivial
          rw [hTrail]
          refine ⟨fun run hRun => (by cases hRun), fun _ => rfl, fun _ _ _ _ _ _ hIn => ?_⟩
          simp at hIn
  | ticked hKeep hFrom hTo hLife =>
      rw [hLife]
      exact iff_of_true hLaw fun hHalf => absurd (mem_closedToHalfOpen.mpr ⟨hMem, hHalf⟩) hKeep
  | tried hHalf hFrom hTo hLife =>
      have hOpen := closedToHalfOpen_suppressed hHalf
      obtain ⟨_, _, hTrail, hFailed⟩ := hStands.rests hAudited.books hMem hFrom hOpen
      rw [hLife]
      refine spawnsWarranted_spawn.trans ((and_iff_right hLaw).trans ?_)
      have hEarlier := hLaw
      rw [hTrail, spawnsWarranted_aside retire_aside, judgedTrail, spawnsWarranted_judge] at hEarlier
      rw [Life.tick, hTrail, List.append_assoc, warranted_iff hEarlier ?_, hFailed hOpen]
      · exact ⟨fun hAllowed _ => hAllowed, fun hCond => hCond (mem_closedToHalfOpen.mp hHalf).2⟩
      · intro record hIn
        rcases List.mem_append.mp hIn with hRetire | hSet
        · exact retire_aside record hRetire
        · rw [List.mem_singleton.mp hSet]
          trivial
  | settled hFrom hTask hOwner hOutcome hSettled =>
      obtain ⟨-, -, before, cancelled, hTrail⟩ := hStands.running_of_task hFrom hTask hOwner
      refine iff_of_true (settled_warranted ?_ hTrail hSettled) trivial
      exact hLaw
  | resumed hFrom hTo hLife =>
      obtain ⟨_, _, hTrail, hAllowed, _⟩ := hStands.waits hFrom
      rw [hLife]
      refine iff_of_true (spawnsWarranted_spawn.mpr ⟨every_concat.mpr ⟨hLaw, trivial⟩, ?_⟩) trivial
      have hEarlier := hLaw
      rw [hTrail, spawnsWarranted_aside (by simp [SupervisorRecord.Aside]), judgedTrail,
        spawnsWarranted_judge] at hEarlier
      simp only [Life.add, hTrail, List.append_assoc]
      exact (warranted_iff hEarlier (by simp [SupervisorRecord.Aside])).mpr hAllowed
  | stopping hFrom hTo hLife =>
      rw [hLife]
      exact iff_of_true ((spawnsWarranted_aside (by simp [SupervisorRecord.Aside])).mpr hLaw) trivial
  | joinedLate hFrom hTo hLife =>
      rw [hLife]
      exact iff_of_true hLaw trivial
  | stopped hFrom hTo hLife =>
      rw [hLife]
      exact iff_of_true ((spawnsWarranted_aside (by simp [SupervisorRecord.Aside])).mpr hLaw) trivial
  | spared hSpares hStage hLife =>
      rw [hLife]
      apply iff_of_true hLaw
      cases label with
      | tick => exact hSpares.elim
      | _ => trivial

end Supervisor

/-- The runs in which the restart policy stands behind every respawn are exactly the
runs whose ticks half-open only breakers of workers that the policy would
restart. -/
theorem respawns_warranted_iff (T : TaskIds) (roster : Roster) (labels : List SupervisorLabel)
    (finish : Supervisor) :
    Runs (Within (SupervisorStep T) fun s => ∀ i ∈ s.ids,
        Every (SpawnsWarranted i (s.worker i).spec) (trail i s.history))
        (.new roster) labels finish ↔
      Runs (Restrict (SupervisorStep T) fun s label => ∀ i ∈ s.ids, s.TrialAllowed label i)
        (.new roster) labels finish :=
  Supervisor.trialAllowed_decides.runs_iff (fun _ _ => Iff.rfl) roster labels finish

/-- A worker that is never to be restarted, with a breaker that opens at its first
failure for a second. -/
def WorkerSpec.guarded : WorkerSpec :=
  { WorkerSpec.new "alpha" with
    restart := .never
    circuit := some ⟨1, .fromSecs 60, .fromSecs 1⟩ }

/-- A worker that is never to be restarted fails once; a second later its half-open
breaker spawns it again. -/
theorem never_worker_respawned :
    ¬ ∀ s, Reachable (SupervisorStep .counting) (.new (.single .guarded .sync)) s →
      ∀ i ∈ s.ids, Every (SpawnsWarranted i (s.worker i).spec) (trail i s.history) := by
  intro hClaim
  obtain ⟨s, hRun, hMem, hSpec, hSpawned, hPast⟩ : ∃ s : Supervisor,
      replay (Supervisor.exec .counting) (.new (.single .guarded .sync))
        [.start, .finish 0 (.err ⟨"broken"⟩), .join 0 (some 1) 0,
          .tick (some 1) (fun _ => 1000000000) 1000000000] = some s ∧
      1 ∈ s.ids ∧ (s.worker 1).spec = .guarded ∧
      (trail 1 s.history)[10]? = some (SupervisorRecord.spawned 1 1 false) ∧
      latestRun ((trail 1 s.history).take 10) = some 0 :=
    ⟨_, rfl, by decide, rfl, rfl, rfl⟩
  have hWarranted := (hClaim s (runs_of_replay hRun).reachable 1 hMem).of_getElem hSpawned
  rw [hSpec] at hWarranted
  have hOnce := Warranted.once hWarranted rfl
  rw [hPast] at hOnce
  cases hOnce

end ServiceKernel
