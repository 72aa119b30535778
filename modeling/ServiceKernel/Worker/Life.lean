import ServiceKernel.Worker.Verdicts

/-! The life of one worker: its state cell, its breaker, its tasks and what the
history says of it, and what each function of the supervisor adds to them. -/
namespace ServiceKernel

open Execution

namespace SupervisorRecord

/-- The worker whose life the record is part of. -/
def subject : SupervisorRecord → Option WorkerId
  | .event (.started id _) => some id
  | .event (.restarted id _ _) => some id
  | .event (.stopping id) => some id
  | .event (.stopped id _) => some id
  | .stateSet id _ => some id
  | .spawned id _ _ => some id
  | .handled id _ _ => some id
  | .consulted id _ _ _ => some id
  | .criticalityApplied id => some id
  | _ => none

def isRestarted : SupervisorRecord → Bool
  | .event (.restarted _ _ _) => true
  | _ => false

def isSpawned : SupervisorRecord → Bool
  | .spawned _ _ _ => true
  | _ => false

-- The equations are made here once, ahead of the proofs that all unfold these definitions.
section
attribute [local simp] subject isRestarted isSpawned
end

end SupervisorRecord

/-- What the history says of the life of one worker. -/
def trail (id : WorkerId) (history : List SupervisorRecord) : List SupervisorRecord :=
  history.filter fun record => record.subject = some id

theorem trail_concat (id : WorkerId) (history : List SupervisorRecord) (record : SupervisorRecord) :
    trail id (history ++ [record]) =
      if record.subject = some id then trail id history ++ [record] else trail id history := by
  by_cases h : record.subject = some id <;> simp [trail, h]

/-- What a spawn leaves. -/
def spawnRecords (id : WorkerId) (name : String) (run : Nat) (cancelled : Bool) :
    List SupervisorRecord :=
  [.stateSet id .starting, .spawned id run cancelled, .stateSet id .running,
    .event (.started id name)]

/-- What a handled outcome leaves before the supervisor decides what follows. -/
def judgeRecords (id : WorkerId) (spec : WorkerSpec) (run : Nat) (outcome : SupervisorOutcome)
    (attempts : UInt32) : List SupervisorRecord :=
  .handled id run outcome ::
    (if outcome.hasFailed then [] else [.event (.stopped id spec.name)]) ++
  [.consulted id outcome.hasFailed attempts (spec.restart.shouldRestart outcome.hasFailed attempts)]

/-- What retiring a worker leaves. -/
def retireRecords (id : WorkerId) (name : String) (hasFailed : Bool) : List SupervisorRecord :=
  [.stateSet id .stopped, .event (.stopped id name)] ++
    if hasFailed then [.criticalityApplied id] else []

/-- One worker, seen alone. `runs` numbers its tasks in the join set. -/
structure Life where
  state : WorkerState
  attempts : UInt32
  breaker : Option CircuitBreaker
  runs : List Nat
  trail : List SupervisorRecord

namespace Life

def add (l : Life) (records : List SupervisorRecord) : Life := { l with trail := l.trail ++ records }

@[simp] theorem add_add (l : Life) (records more : List SupervisorRecord) :
    (l.add records).add more = l.add (records ++ more) := by
  simp [add]

def spawn (l : Life) (id : WorkerId) (name : String) (run : Nat) (cancelled : Bool) : Life :=
  { l.add (spawnRecords id name run cancelled) with state := .running, runs := l.runs ++ [run] }

def tick (l : Life) (now : Instant) : Life := { l with breaker := l.breaker.map (·.tick now) }

def join (l : Life) (run : Nat) : Life := { l with runs := l.runs.erase run }

theorem join_runs {l : Life} {run : Nat} (h : l.runs = [run]) : (l.join run).runs = [] := by
  simp [join, h]

/-- The outcome of a joined task is put before the breaker and the policy. -/
def judge (l : Life) (id : WorkerId) (spec : WorkerSpec) (run : Nat) (outcome : SupervisorOutcome)
    (attempts : UInt32) (now : Instant) : Life :=
  { l.add (judgeRecords id spec run outcome attempts) with
    attempts := attempts, breaker := l.breaker.map (·.record outcome.hasFailed now) }

def wait (l : Life) (id : WorkerId) : Life :=
  { l.add [.stateSet id .restarting] with state := .restarting }

def retire (l : Life) (id : WorkerId) (name : String) (hasFailed : Bool) : Life :=
  { l.add (retireRecords id name hasFailed) with state := .stopped }

/-- A restart is announced under the name the supervisor kept through the wait. -/
def restart (l : Life) (id : WorkerId) (announced : String) (attempt : UInt32) (name : String)
    (run : Nat) (cancelled : Bool) : Life :=
  (l.add [.event (.restarted id announced attempt)]).spawn id name run cancelled

def stop (l : Life) (id : WorkerId) : Life :=
  { l.add [.stateSet id .stopping, .event (.stopping id)] with state := .stopping }

def markStopped (l : Life) (id : WorkerId) (name : String) : Life :=
  { l.add [.stateSet id .stopped, .event (.stopped id name)] with state := .stopped }

/-- A breaker that a tick did not half-open is as it was. -/
theorem breaker_of_tick {l : Life} {now : Instant} {b : CircuitBreaker}
    (hNew : (l.tick now).breaker = some b) (hState : b.state ≠ .halfOpen) : l.breaker = some b := by
  obtain ⟨old, hOld, rfl⟩ := Option.map_eq_some_iff.mp hNew
  rw [CircuitBreaker.tick_of_ne_halfOpen hState]
  exact hOld

/-- The worker's breaker suppresses its restart. -/
def Suppressed (l : Life) : Prop := ∃ b, l.breaker = some b ∧ b.state = .opened

end Life

namespace Supervisor

def life (s : Supervisor) (i : WorkerId) : Life where
  state := (s.worker i).handle.state
  attempts := (s.worker i).attempts
  breaker := (s.worker i).circuit
  runs := (s.joinSet.filter fun task => task.worker = i).map Task.run
  trail := trail i s.history

variable {T : TaskIds} {s : Supervisor} {id i : WorkerId}

theorem life_log (record : SupervisorRecord) : (s.log record).life i =
    if record.subject = some i then (s.life i).add [record] else s.life i := by
  have hTrail : trail i (s.log record).history =
      if record.subject = some i then trail i s.history ++ [record] else trail i s.history :=
    trail_concat ..
  simp only [life, hTrail]
  split_ifs <;> rfl

theorem life_log_other {record : SupervisorRecord} (h : record.subject = none) :
    (s.log record).life i = s.life i := by
  rw [life_log, h, if_neg (by simp)]

theorem life_modifyWorker (f : RegisteredWorker → RegisteredWorker) :
    (s.modifyWorker id f).life i = if i = id then { s.life i with
      state := (f (s.worker id)).handle.state
      attempts := (f (s.worker id)).attempts
      breaker := (f (s.worker id)).circuit } else s.life i := by
  split_ifs with hSame
  · subst hSame
    simp [life, modifyWorker]
  · simp [life, modifyWorker, hSame]

theorem life_setState (state : WorkerState) : (s.setState id state).life i =
    if i = id then { (s.life i).add [.stateSet id state] with state := state } else s.life i := by
  simp only [setState, life_log, life_modifyWorker, SupervisorRecord.subject, Option.some.injEq]
  split_ifs with hA hB hB
  · subst hB
    rfl
  · exact absurd hA.symm hB
  · exact absurd hB.symm hA
  · rfl

@[simp] theorem life_cancelWorkerToken : (s.cancelWorkerToken id).life i = s.life i := by
  rw [cancelWorkerToken, life_modifyWorker]
  split_ifs with hSame
  · subst hSame
    rfl
  · rfl

theorem life_spawnTask : (s.spawnTask T id).life i = if i = id then
    { (s.life i).add [.spawned id s.contexts.length (s.isCancelled id)] with
      runs := (s.life i).runs ++ [s.contexts.length] } else s.life i := by
  have hTrail : trail i (s.spawnTask T id).history =
      if some id = some i then
        trail i s.history ++ [SupervisorRecord.spawned id s.contexts.length (s.isCancelled id)]
      else trail i s.history := trail_concat ..
  simp only [life, hTrail, Option.some.injEq]
  split_ifs with hA hB hB
  · subst hB
    simp [spawnTask, Life.add]
  · exact absurd hA.symm hB
  · exact absurd hB.symm hA
  · have hNe : id ≠ i := hA
    simp [spawnTask, hNe]

/-- A spawn is a matter of one worker. -/
theorem life_spawnOne (h : id ∈ s.ids) : (s.spawnOne T id).life i = if i = id then
    (s.life i).spawn id (s.worker id).spec.name s.contexts.length (s.isCancelled id)
    else s.life i := by
  have hCancelled : (s.setState id .starting).isCancelled id = s.isCancelled id := by
    simp [setState, modifyWorker, isCancelled, log]
  have hSpec : (((s.setState id .starting).spawnTask T id |>.setState id .running).worker id).spec =
      (s.worker id).spec := by
    simp [setState, modifyWorker, spawnTask, log]
  simp only [spawnOne, if_pos h, emit, life_log, life_setState, life_spawnTask, hCancelled, hSpec,
    SupervisorRecord.subject, Option.some.injEq]
  split_ifs with hA hB hB
  · subst hB
    simp only [Life.spawn, Life.add, spawnRecords, List.append_assoc, List.cons_append,
      List.nil_append]
    rfl
  · exact absurd hA.symm hB
  · exact absurd hB.symm hA
  · rfl

theorem life_announceOutcome (run : Nat) (outcome : SupervisorOutcome) :
    (s.announceOutcome id run outcome).life i = if i = id then
      (s.life i).add (.handled id run outcome ::
        if outcome.hasFailed then [] else [.event (.stopped id (s.worker id).spec.name)])
      else s.life i := by
  cases outcome with
  | completed =>
      simp only [announceOutcome, emit, life_log, SupervisorRecord.subject, SupervisorOutcome.event,
        SupervisorOutcome.hasFailed, Option.some.injEq, eq_comm (a := id), Bool.false_eq_true,
        if_false]
      split_ifs
      · rw [Life.add_add]
        rfl
      · rfl
  | _ =>
      simp only [announceOutcome, emit, life_log, SupervisorRecord.subject, SupervisorOutcome.event,
        SupervisorOutcome.hasFailed, Option.some.injEq, reduceCtorEq, if_false, if_true,
        eq_comm (a := id)]

theorem life_storeBreaker (s : Supervisor) (id i : WorkerId) (hasFailed : Bool) (after : CircuitBreaker) :
    (s.storeBreaker id hasFailed after).life i =
      if i = id then { s.life i with breaker := some after } else s.life i := by
  rw [storeBreaker, life_log_other rfl, life_modifyWorker]
  split_ifs with hSame
  · subst hSame
    rfl
  · rfl

theorem life_advanceCircuit (h : id ∈ s.ids) (hasFailed : Bool) :
    (s.advanceCircuit id hasFailed).1.life i = if i = id then
      { s.life i with breaker := (s.life i).breaker.map (·.record hasFailed s.clock) }
      else s.life i := by
  cases hCircuit : (s.worker id).circuit with
  | none =>
      simp only [advanceCircuit, if_pos h, hCircuit]
      split_ifs with hSame
      · subst hSame
        simp [life, hCircuit]
      · rfl
  | some breaker =>
      have hStored := life_storeBreaker s id i hasFailed
        (breaker.record hasFailed s.clock)
      have hBreaker : (s.life id).breaker = some breaker := hCircuit
      have hGoal : (s.advanceCircuit id hasFailed).1.life i =
          (s.storeBreaker id hasFailed (breaker.record hasFailed s.clock)).life i := by
        simp only [advanceCircuit, if_pos h, hCircuit]
        split
        · rename_i event hEvent
          apply life_log_other
          revert hEvent
          cases breaker.state <;> cases (breaker.record hasFailed s.clock).state <;>
            rintro ⟨⟩ <;> rfl
        · rfl
      rw [hGoal, hStored]
      split_ifs with hSame
      · subst hSame
        rw [hBreaker]
        rfl
      · rfl

/-- The failure count the restart policy is asked about. -/
theorem consultPolicy_attempts (hasFailed : Bool) (wall : Option Nat) :
    (s.consultPolicy id hasFailed wall).2.2 = (s.worker id).attemptsAfter hasFailed wall := by
  cases hasFailed <;> rfl

theorem consultPolicy_allows (hasFailed : Bool) (wall : Option Nat) :
    (s.consultPolicy id hasFailed wall).2.1 = (s.worker id).spec.restart.shouldRestart hasFailed
      ((s.worker id).attemptsAfter hasFailed wall) := by
  cases hasFailed <;> rfl

theorem life_consultPolicy (hasFailed : Bool) (wall : Option Nat) :
    (s.consultPolicy id hasFailed wall).1.life i = if i = id then
      { (s.life i).add [.consulted id hasFailed ((s.worker id).attemptsAfter hasFailed wall)
          ((s.worker id).spec.restart.shouldRestart hasFailed
            ((s.worker id).attemptsAfter hasFailed wall))] with
        attempts := (s.worker id).attemptsAfter hasFailed wall }
      else s.life i := by
  cases hasFailed <;>
    simp only [consultPolicy, life_log, life_modifyWorker, SupervisorRecord.subject,
      Option.some.injEq, RegisteredWorker.attemptsAfter, Bool.false_eq_true, if_false, if_true,
      eq_comm] <;>
    split_ifs with hSame <;> first | rfl | (subst hSame; rfl)

theorem life_applyCriticality (name : String) (criticality : Criticality) :
    (s.applyCriticality name criticality).life i = s.life i := by
  cases criticality with
  | background => rfl
  | _ => exact life_log_other rfl

theorem life_retire (s : Supervisor) (id i : WorkerId) (hasFailed : Bool) :
    (s.retire id hasFailed).life i =
      if i = id then (s.life i).retire id (s.worker id).spec.name hasFailed else s.life i := by
  cases hasFailed <;>
    simp only [retire, emit, life_log, life_setState, life_applyCriticality,
      SupervisorRecord.subject, Option.some.injEq, if_false, if_true, Bool.false_eq_true,
      eq_comm (a := id)] <;>
    split_ifs <;>
    simp only [Life.retire, Life.add, retireRecords, List.append_assoc, List.cons_append,
      List.nil_append, List.append_nil, Bool.false_eq_true, if_false, if_true]

theorem life_restartNow (h : id ∈ s.ids) (name : String) (attempts : UInt32) :
    (s.restartNow T id name attempts).life i = if i = id then
      (s.life i).restart id name (saturatingAddU32 attempts 1) (s.worker id).spec.name
        s.contexts.length (s.isCancelled id)
      else s.life i := by
  let logged := (s.emit (.restarted id name (saturatingAddU32 attempts 1))).log
    (.counter .workersRestarted name)
  have hLogged : logged.life i = if i = id then
      (s.life i).add [.event (.restarted id name (saturatingAddU32 attempts 1))]
      else s.life i := by
    rw [life_log_other rfl, emit, life_log]
    simp only [SupervisorRecord.subject, Option.some.injEq, eq_comm (a := id)]
  have hMem : id ∈ logged.ids := h
  apply (life_spawnOne (T := T) (i := i) hMem).trans
  rw [hLogged]
  split_ifs <;> rfl

/-- How a judged outcome ends for its worker: it is retired, waits for its restart or
runs again. -/
inductive Settled (s' : Supervisor) (id : WorkerId) (spec : WorkerSpec) (hasFailed : Bool)
    (judged : Life) : Prop where
  | retired (hRefused : ¬ (spec.restart.shouldRestart hasFailed judged.attempts = true ∧
        ¬ judged.Suppressed))
      (hPhase : s'.phase = .head) (hLife : s'.life id = judged.retire id spec.name hasFailed)
  | waiting {name : String} {due : Instant}
      (hAllowed : spec.restart.shouldRestart hasFailed judged.attempts = true)
      (hClosed : ¬ judged.Suppressed) (hDelay : (spec.backoff.delay judged.attempts).isZero = false)
      (hPhase : s'.phase = .backoff id name judged.attempts due)
      (hLife : s'.life id = judged.wait id)
  | restarted {name : String} {attempt : UInt32} {run : Nat} {cancelled : Bool}
      (hAllowed : spec.restart.shouldRestart hasFailed judged.attempts = true)
      (hClosed : ¬ judged.Suppressed) (hDelay : (spec.backoff.delay judged.attempts).isZero = true)
      (hPhase : s'.phase = .head)
      (hLife : s'.life id = (judged.wait id).restart id name attempt spec.name run cancelled)

/-- What follows a judgement moves neither the count nor the breaker. -/
theorem Settled.cells {s' : Supervisor} {spec : WorkerSpec} {hasFailed : Bool} {judged : Life}
    (h : Settled s' id spec hasFailed judged) :
    (s'.life id).attempts = judged.attempts ∧ (s'.life id).breaker = judged.breaker := by
  cases h with
  | retired _ _ hLife | waiting _ _ _ _ hLife | restarted _ _ _ _ hLife =>
      rw [hLife]
      exact ⟨rfl, rfl⟩

theorem beginRestart_settled (h : id ∈ s.ids) {hasFailed : Bool}
    (hAllowed : (s.worker id).spec.restart.shouldRestart hasFailed (s.life id).attempts = true)
    (hClosed : ¬ (s.life id).Suppressed) :
    Settled (s.beginRestart T id (s.life id).attempts) id (s.worker id).spec hasFailed
      (s.life id) := by
  have hMem : id ∈ (s.setState id .restarting).ids := h
  have hWait : (s.setState id .restarting).life id = (s.life id).wait id := by
    rw [life_setState, if_pos rfl]
    rfl
  have hSpec : ((s.setState id .restarting).worker id).spec = (s.worker id).spec := by
    simp [setState, modifyWorker, log]
  unfold beginRestart
  simp only []
  split_ifs with hZero
  · have hLife := life_restartNow (T := T) (i := id) hMem (s.worker id).spec.name
      (s.life id).attempts
    rw [if_pos rfl, hWait, hSpec] at hLife
    exact .restarted hAllowed hClosed hZero rfl hLife
  · exact .waiting hAllowed hClosed (Bool.eq_false_iff.mpr hZero) rfl
      ((life_log_other rfl).trans hWait)

theorem advanceCircuit_suppressed (h : id ∈ s.ids) (hasFailed : Bool) :
    (s.advanceCircuit id hasFailed).2 = true ↔
      ((s.advanceCircuit id hasFailed).1.life id).Suppressed := by
  rw [(advanceCircuit_spec h hasFailed).2.2.2, life_advanceCircuit h, if_pos rfl]
  rfl

/-- Handling an outcome judges it and settles what follows. -/
theorem handleOutcome_settled (h : id ∈ s.ids) (hPhase : s.phase = .head) (run : Nat)
    (outcome : SupervisorOutcome) (wall : Option Nat) :
    Settled (s.handleOutcome T id run outcome wall) id (s.worker id).spec outcome.hasFailed
      ((s.life id).judge id (s.worker id).spec run outcome
        ((s.worker id).attemptsAfter outcome.hasFailed wall) s.clock) := by
  let announced := s.announceOutcome id run outcome
  have hFrame : announced.frame = s.frame := frame_announceOutcome run outcome
  have hMem : id ∈ announced.ids := ids_eq hFrame ▸ h
  have hWorker : announced.worker = s.worker := announceOutcome_worker run outcome
  let advanced := (announced.advanceCircuit id outcome.hasFailed).1
  have hFrame' : advanced.frame = s.frame := (advanceCircuit_spec hMem _).1.trans hFrame
  have hMem' : id ∈ advanced.ids := ids_eq hFrame' ▸ h
  obtain ⟨-, hHandle, hSpec⟩ := advanceCircuit_judgements hMem outcome.hasFailed
  rw [hWorker] at hHandle hSpec
  let consulted := (advanced.consultPolicy id outcome.hasFailed wall).1
  have hSpec' : (consulted.worker id).spec = (s.worker id).spec :=
    (congrFun (congrArg Frame.spec (frame_consultPolicy outcome.hasFailed wall)) id).trans hSpec
  have hAttempts : (advanced.worker id).attemptsAfter outcome.hasFailed wall =
      (s.worker id).attemptsAfter outcome.hasFailed wall := by
    simp only [RegisteredWorker.attemptsAfter, advanced, announced, hHandle]
  have hJudged : consulted.life id = (s.life id).judge id (s.worker id).spec run outcome
      ((s.worker id).attemptsAfter outcome.hasFailed wall) s.clock := by
    rw [life_consultPolicy, if_pos rfl, hAttempts, life_advanceCircuit hMem, if_pos rfl,
      life_announceOutcome, if_pos rfl, clock_eq hFrame]
    simp only [Life.judge, Life.add, judgeRecords, List.append_assoc, List.cons_append]
    have hSpecs : (advanced.worker id).spec = (s.worker id).spec := hSpec
    rw [hSpecs]
  have hOpen : (announced.advanceCircuit id outcome.hasFailed).2 = true ↔
      (consulted.life id).Suppressed := by
    rw [advanceCircuit_suppressed hMem, life_consultPolicy, if_pos rfl]
    rfl
  have hAsked : (consulted.life id).attempts = (s.worker id).attemptsAfter outcome.hasFailed wall := by
    rw [hJudged]
    rfl
  have hAllows : (advanced.consultPolicy id outcome.hasFailed wall).2.1 =
      (s.worker id).spec.restart.shouldRestart outcome.hasFailed (consulted.life id).attempts := by
    rw [consultPolicy_allows, hAttempts, hAsked, hSpec]
  have hCount : (advanced.consultPolicy id outcome.hasFailed wall).2.2 =
      (consulted.life id).attempts := by
    rw [consultPolicy_attempts, hAttempts, hAsked]
  rw [← hJudged]
  simp only [handleOutcome, if_pos h, maybeRestart]
  rw [if_pos hMem']
  simp only [decideRestart]
  rw [hCount, ← hSpec']
  split_ifs with hRestart
  · rw [Bool.and_eq_true, Bool.not_eq_true', hAllows, ← hSpec'] at hRestart
    apply beginRestart_settled (s := consulted) hMem' hRestart.1
    intro hSuppressed
    rw [← hOpen, hRestart.2] at hSuppressed
    cases hSuppressed
  · have hStopped := life_retire consulted id id outcome.hasFailed
    rw [if_pos rfl] at hStopped
    refine .retired (fun hBoth => hRestart ?_) ?_ hStopped
    · rw [Bool.and_eq_true, Bool.not_eq_true', hAllows, ← hSpec']
      obtain ⟨hAllowed, hClosed⟩ := hBoth
      exact ⟨hAllowed, Bool.eq_false_iff.mpr fun hSuppressed => hClosed (hOpen.mp hSuppressed)⟩
    · rw [phase_retire]
      exact (advanceCircuit_phase _).trans ((phase_announceOutcome run outcome).trans hPhase)

theorem life_beginRestart_other (h : id ∈ s.ids) (hne : i ≠ id) (attempts : UInt32) :
    (s.beginRestart T id attempts).life i = s.life i := by
  have hMem : id ∈ (s.setState id .restarting).ids := h
  have hWait : (s.setState id .restarting).life i = s.life i := by
    rw [life_setState, if_neg hne]
  unfold beginRestart
  simp only []
  split_ifs
  · rw [life_restartNow hMem, if_neg hne, hWait]
  · exact (life_log_other rfl).trans hWait

/-- An outcome concerns its worker alone. -/
theorem life_handleOutcome_other (h : id ∈ s.ids) (hne : i ≠ id) (run : Nat)
    (outcome : SupervisorOutcome) (wall : Option Nat) :
    (s.handleOutcome T id run outcome wall).life i = s.life i := by
  have hMem : id ∈ (s.announceOutcome id run outcome).ids := by
    rw [ids_eq (frame_announceOutcome run outcome)]
    exact h
  let advanced := ((s.announceOutcome id run outcome).advanceCircuit id outcome.hasFailed).1
  have hMem' : id ∈ advanced.ids := by
    rw [ids_eq (advanceCircuit_spec hMem _).1]
    exact hMem
  have hConsulted : id ∈ (advanced.consultPolicy id outcome.hasFailed wall).1.ids := hMem'
  simp only [handleOutcome, if_pos h, maybeRestart]
  rw [if_pos hMem']
  simp only [decideRestart]
  split_ifs
  · rw [life_beginRestart_other hConsulted hne, life_consultPolicy, if_neg hne, life_advanceCircuit hMem,
      if_neg hne, life_announceOutcome, if_neg hne]
  · rw [life_retire, if_neg hne, life_consultPolicy, if_neg hne, life_advanceCircuit hMem,
      if_neg hne, life_announceOutcome, if_neg hne]

/-- Joining a task leaves its worker without it. -/
theorem life_removeTask (hTasks : s.tasks.Consistent) {task : Task} (hMem : task ∈ s.joinSet) :
    (s.removeTask task).life i = { s.life i with
      runs := if i = task.worker then (s.life i).runs.erase task.run else (s.life i).runs } := by
  obtain ⟨front, back, hSplit, hRest⟩ := hTasks.remove_split hMem
  have hNodup := hTasks.numbered
  rw [hSplit, List.map_append, List.map_cons, List.nodup_middle, List.nodup_cons,
    ← List.map_append] at hNodup
  have hAfter : (s.removeTask task).joinSet = front ++ back := hRest
  have hBefore : s.joinSet = front ++ task :: back := hSplit
  have hNotMem : task.run ∉ (front.filter fun other => other.worker = task.worker).map Task.run := by
    intro hIn
    obtain ⟨other, hOther, hRun⟩ := List.mem_map.mp hIn
    exact hNodup.1 (List.mem_map.mpr
      ⟨other, List.mem_append_left _ (List.mem_filter.mp hOther).1, hRun⟩)
  simp only [life, hAfter, hBefore, List.filter_append, List.map_append, Life.mk.injEq]
  split_ifs with hOwn
  · subst hOwn
    rw [List.filter_cons_of_pos (by simp), List.map_cons, List.erase_append_right _ hNotMem,
      List.erase_cons_head]
    exact ⟨rfl, rfl, rfl, rfl, rfl⟩
  · rw [List.filter_cons_of_neg (by simpa using Ne.symm hOwn)]
    exact ⟨rfl, rfl, rfl, rfl, rfl⟩

theorem life_tickBreakers (nows : WorkerId → Instant) :
    (s.tickBreakers nows).life i = if i ∈ s.ids then (s.life i).tick (nows i) else s.life i := by
  by_cases h : i ∈ s.ids <;> simp [life, tickBreakers, Life.tick, h]

@[simp] theorem life_reportTimeout (timeout : WatchdogTimeout) :
    (s.reportTimeout timeout).life i = s.life i := by
  unfold reportTimeout
  simp only []
  split_ifs
  · rw [life_cancelWorkerToken]
    exact life_log_other rfl
  · exact life_log_other rfl

end Supervisor

end ServiceKernel
