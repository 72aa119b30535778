import ServiceKernel.Worker.CircuitReports
import ServiceKernel.Worker.Standing

/-! All that the supervisor keeps of one worker and all that it tells of it, and what each
function of the supervisor makes of them. No worker has a part in another's facet. -/
namespace ServiceKernel

open Execution

/-- The worker an event is about. -/
def WorkerLifecycleEvent.worker : WorkerLifecycleEvent → WorkerId
  | .started id _ => id
  | .failed id _ _ => id
  | .panicked id _ _ => id
  | .restarted id _ _ => id
  | .stopping id => id
  | .stopped id _ => id
  | .circuitOpened id _ _ => id
  | .circuitHalfOpened id _ => id
  | .circuitClosed id _ => id
  | .timeout id _ _ => id

namespace RegisteredWorker

/-- A tick at this instant half-opens the worker's breaker. -/
def halfOpens (r : RegisteredWorker) (now : Instant) : Bool :=
  match r.circuit with
  | some breaker => breaker.state = .opened ∧ (breaker.tick now).state = .halfOpen
  | none => false

/-- What the watchdog finds of the worker at this time. -/
def timeout? (r : RegisteredWorker) (now : Int) : Option WatchdogTimeout :=
  (r.spec.heartbeatInterval.map fun interval =>
    WatchdogTarget.mk r.handle.id r.spec.name r.lastHeartbeat interval).bind
      (Watchdog.checkTarget now)

end RegisteredWorker

/-- A worker's entry in `registered`, the events about it, and its tasks in the join set,
each with its result if it has ended. -/
structure Facet where
  worker : RegisteredWorker
  told : List WorkerLifecycleEvent
  flight : List (Option JoinResult)

namespace Facet

variable (v : Facet) (id : WorkerId)

def tell (events : List WorkerLifecycleEvent) : Facet := { v with told := v.told ++ events }

def setState (state : WorkerState) : Facet :=
  { v with worker := { v.worker with handle := { v.worker.handle with state := state } } }

def cancelToken : Facet :=
  { v with worker := { v.worker with handle := { v.worker.handle with cancelled := true } } }

/-- The worker's only task has ended. -/
def finish (result : JoinResult) : Facet := { v with flight := [some result] }

/-- The worker's only task has been joined. -/
def land : Facet := { v with flight := [] }

def spawn : Facet :=
  { (v.setState .running).tell [.started id v.worker.spec.name] with flight := v.flight ++ [none] }

def restart (name : String) (attempts : UInt32) : Facet :=
  (v.tell [.restarted id name (saturatingAddU32 attempts 1)]).spawn id

def tick (now : Instant) : Facet :=
  { v with worker := { v.worker with circuit := v.worker.circuit.map (·.tick now) } }

def trial : Facet := (v.tell [.circuitHalfOpened id v.worker.spec.name]).spawn id

/-- The outcome is put before the breaker. -/
def advance (hasFailed : Bool) (now : Instant) : Facet where
  worker := { v.worker with circuit := v.worker.circuit.map (·.record hasFailed now) }
  told := v.told ++ (v.worker.circuitMove id hasFailed now).toList
  flight := v.flight

/-- The outcome is put before the policy. -/
def consult (hasFailed : Bool) (wall : Option Nat) : Facet :=
  { v with worker := { v.worker with
      handle := if hasFailed then
          (v.worker.handle.recordFailure failureWindowNanos (unixNanos wall)).1
        else v.worker.handle
      attempts := v.worker.attemptsAfter hasFailed wall } }

def judge (outcome : SupervisorOutcome) (wall : Option Nat) (now : Instant) : Facet :=
  ((v.tell [outcome.event id v.worker.spec.name]).advance id outcome.hasFailed now).consult
    outcome.hasFailed wall

/-- A worker that is to be restarted is spawned at once or waits. -/
def resume (attempts : UInt32) : Facet :=
  let waiting := v.setState .restarting
  if (v.worker.spec.backoff.delay attempts).isZero then
    waiting.restart id v.worker.spec.name attempts
  else waiting

def retire : Facet := (v.setState .stopped).tell [.stopped id v.worker.spec.name]

/-- An outcome is judged and what follows is decided. -/
def settle (outcome : SupervisorOutcome) (wall : Option Nat) (now : Instant) : Facet :=
  if v.worker.restarts outcome.hasFailed wall now then
    (v.judge id outcome wall now).resume id (v.worker.attemptsAfter outcome.hasFailed wall)
  else (v.judge id outcome wall now).retire id

def timeOut (timeout : WatchdogTimeout) : Facet :=
  (v.tell [.timeout timeout.id timeout.name timeout.silentFor]).cancelToken

/-- A tick moves the breaker, starts a trial if that half-opens it, and looks at the heartbeat. -/
def watch (wall : Option Nat) (now : Instant) : Facet :=
  ((v.worker.timeout? (unixNanos wall)).toList).foldl timeOut
    (if v.worker.halfOpens now then (v.tick now).trial id else v.tick now)

def beat (wall : Option Nat) : Facet :=
  { v with worker := { v.worker with lastHeartbeat := unixNanos wall } }

def stop : Facet := ((v.setState .stopping).cancelToken).tell [.stopping id]

end Facet

/-- Where the supervisor goes on once a worker has been restarted or waits for it. -/
def RegisteredWorker.resumePhase (r : RegisteredWorker) (id : WorkerId) (attempts : UInt32)
    (now : Instant) : SupervisorPhase :=
  if (r.spec.backoff.delay attempts).isZero then .head
  else .backoff id r.spec.name attempts (now + (r.spec.backoff.delay attempts).nanos)

/-- Where the supervisor goes on once an outcome is settled. -/
def RegisteredWorker.nextPhase (r : RegisteredWorker) (id : WorkerId) (hasFailed : Bool)
    (wall : Option Nat) (now : Instant) : SupervisorPhase :=
  if r.restarts hasFailed wall now then r.resumePhase id (r.attemptsAfter hasFailed wall) now
  else .head

namespace Supervisor

/-- The events about worker `i`, in the order they were emitted. -/
def told (s : Supervisor) (i : WorkerId) : List WorkerLifecycleEvent :=
  s.history.filterMap fun record => match record with
    | .event event => if event.worker = i then some event else none
    | _ => none

/-- The results of worker `i`'s tasks in the join set. -/
def flight (s : Supervisor) (i : WorkerId) : List (Option JoinResult) :=
  (s.joinSet.filter fun task => task.worker = i).map Task.result

def facet (s : Supervisor) (i : WorkerId) : Facet := ⟨s.worker i, s.told i, s.flight i⟩

variable {T : TaskIds} {s : Supervisor} {id i : WorkerId}

section Parts

/-- Only events are told. -/
theorem facet_log {record : SupervisorRecord} (h : ∀ event, record ≠ .event event) :
    (s.log record).facet i = s.facet i := by
  cases record with
  | event event => exact absurd rfl (h event)
  | _ => simp [facet, told, flight, log]

theorem facet_emit (event : WorkerLifecycleEvent) :
    (s.emit event).facet i = if i = event.worker then (s.facet i).tell [event] else s.facet i := by
  by_cases h : event.worker = i
  · simp [facet, told, flight, emit, log, Facet.tell, h]
  · simp [facet, told, flight, emit, log, h, Ne.symm h]

theorem facet_modifyWorker (f : RegisteredWorker → RegisteredWorker) :
    (s.modifyWorker id f).facet i =
      if i = id then { s.facet i with worker := f (s.facet i).worker } else s.facet i := by
  split_ifs with h
  · subst h
    simp [facet, told, flight, modifyWorker]
  · simp [facet, told, flight, modifyWorker, h]

theorem facet_setState (state : WorkerState) : (s.setState id state).facet i =
    if i = id then (s.facet i).setState state else s.facet i := by
  rw [setState, facet_log fun _ => by simp, facet_modifyWorker]
  rfl

theorem facet_cancelWorkerToken : (s.cancelWorkerToken id).facet i =
    if i = id then (s.facet i).cancelToken else s.facet i := facet_modifyWorker _

theorem facet_spawnTask : (s.spawnTask T id).facet i =
    if i = id then { s.facet i with flight := (s.facet i).flight ++ [none] } else s.facet i := by
  split_ifs with h
  · simp [facet, told, flight, spawnTask, h]
  · simp [facet, told, flight, spawnTask, Ne.symm h]

theorem facet_spawnOne (h : id ∈ s.ids) : (s.spawnOne T id).facet i =
    if i = id then (s.facet i).spawn id else s.facet i := by
  have hRunning : (((s.setState id .starting).spawnTask T id).setState id .running).facet i =
      if i = id then
        { (s.facet i).setState .running with flight := (s.facet i).flight ++ [none] }
      else s.facet i := by
    rw [facet_setState, facet_spawnTask, facet_setState]
    split_ifs <;> rfl
  have hSpec : ((((s.setState id .starting).spawnTask T id).setState id .running).worker id).spec =
      (s.worker id).spec := by
    simp [setState, modifyWorker, spawnTask, log]
  simp only [spawnOne, if_pos h, facet_emit, hRunning, hSpec, WorkerLifecycleEvent.worker]
  split_ifs with hSame
  · rw [hSame]
    rfl
  · rfl

theorem facet_restartNow (h : id ∈ s.ids) (name : String) (attempts : UInt32) :
    (s.restartNow T id name attempts).facet i =
      if i = id then (s.facet i).restart id name attempts else s.facet i := by
  let logged := (s.emit (.restarted id name (saturatingAddU32 attempts 1))).log
    (.counter .workersRestarted name)
  have hLogged : logged.facet i = if i = id then
      (s.facet i).tell [.restarted id name (saturatingAddU32 attempts 1)] else s.facet i :=
    (facet_log fun _ => by simp).trans (facet_emit _)
  have hMem : id ∈ logged.ids := h
  apply (facet_spawnOne (T := T) (i := i) hMem).trans
  rw [hLogged]
  split_ifs <;> rfl

theorem facet_beginRestart (h : id ∈ s.ids) (attempts : UInt32) :
    (s.beginRestart T id attempts).facet i =
      (if i = id then (s.facet i).resume id attempts else s.facet i) ∧
    (s.beginRestart T id attempts).phase = (s.worker id).resumePhase id attempts s.clock := by
  have hMem : id ∈ (s.setState id .restarting).ids := h
  have hWaiting : (s.setState id .restarting).facet i =
      if i = id then (s.facet i).setState .restarting else s.facet i := facet_setState _
  have hLogged : ((s.setState id .restarting).log
      (.backingOff id ((s.worker id).spec.backoff.delay attempts))).facet i =
      if i = id then (s.facet i).setState .restarting else s.facet i :=
    (facet_log fun _ => by simp).trans hWaiting
  have hSpec (hSame : i = id) : (s.facet i).worker.spec = (s.worker id).spec := by rw [hSame]; rfl
  simp only [beginRestart, RegisteredWorker.resumePhase]
  by_cases hSame : i = id
  · rw [if_pos hSame] at hWaiting hLogged ⊢
    rw [Facet.resume, hSpec hSame]
    split_ifs with hZero
    · refine ⟨?_, rfl⟩
      rw [facet_restartNow hMem, if_pos hSame, hWaiting]
    · exact ⟨hLogged, rfl⟩
  · rw [if_neg hSame] at hWaiting hLogged ⊢
    split_ifs
    · refine ⟨?_, rfl⟩
      rw [facet_restartNow hMem, if_neg hSame, hWaiting]
    · exact ⟨hLogged, rfl⟩

theorem facet_announceOutcome (run : Nat) (outcome : SupervisorOutcome) :
    (s.announceOutcome id run outcome).facet i = if i = id then
      (s.facet i).tell [outcome.event id (s.worker id).spec.name] else s.facet i := by
  have hWorker : (outcome.event id (s.worker id).spec.name).worker = id := by
    cases outcome <;> rfl
  have hEvent : ((s.log (.handled id run outcome)).emit
      (outcome.event id (s.worker id).spec.name)).facet i = if i = id then
      (s.facet i).tell [outcome.event id (s.worker id).spec.name] else s.facet i := by
    rw [facet_emit, hWorker, facet_log fun _ => by simp]
  unfold announceOutcome
  simp only []
  split_ifs at hEvent ⊢
  · exact (facet_log fun _ => by simp).trans hEvent
  · exact (facet_log fun _ => by simp).trans hEvent
  · exact hEvent
  · exact hEvent

theorem facet_advanceCircuit (h : id ∈ s.ids) (hasFailed : Bool) :
    (s.advanceCircuit id hasFailed).1.facet i =
      if i = id then (s.facet i).advance id hasFailed s.clock else s.facet i := by
  cases hCircuit : (s.worker id).circuit with
  | none =>
      simp only [advanceCircuit, if_pos h, hCircuit]
      split_ifs with hSame
      · subst hSame
        have hWorker : { s.worker i with circuit := none } = s.worker i := by rw [← hCircuit]
        simp [facet, Facet.advance, RegisteredWorker.circuitMove, hCircuit, hWorker]
      · rfl
  | some breaker =>
      let after := breaker.record hasFailed s.clock
      have hStored : (s.storeBreaker id hasFailed after).facet i = if i = id then
          { s.facet i with worker := { (s.facet i).worker with circuit := some after } }
          else s.facet i := by
        rw [storeBreaker, facet_log fun _ => by simp, facet_modifyWorker]
      have hMove : (s.worker id).circuitMove id hasFailed s.clock = circuitEvent id
          (s.worker id).spec.name (saturatingAddU32 (s.worker id).attempts 1) breaker.state
          after.state := by
        rw [RegisteredWorker.circuitMove, hCircuit]
        rfl
      simp only [advanceCircuit, if_pos h, hCircuit]
      split
      · rename_i event hEvent
        have hWorker : event.worker = id := by
          revert hEvent
          cases breaker.state <;> cases (breaker.record hasFailed s.clock).state <;>
            rintro ⟨⟩ <;> rfl
        rw [facet_emit, hWorker, hStored]
        split_ifs with hSame
        · subst hSame
          simp [Facet.advance, Facet.tell, facet, hMove, hEvent, hCircuit, after]
        · rfl
      · rename_i hNone
        rw [hStored]
        split_ifs with hSame
        · subst hSame
          simp [Facet.advance, facet, hMove, hNone, hCircuit, after]
        · rfl

theorem facet_consultPolicy (hasFailed : Bool) (wall : Option Nat) :
    (s.consultPolicy id hasFailed wall).1.facet i =
      if i = id then (s.facet i).consult hasFailed wall else s.facet i := by
  refine (facet_log (s := s.modifyWorker id _) fun _ => by simp).trans ?_
  rw [facet_modifyWorker]
  split_ifs with hSame
  · subst hSame
    cases hasFailed <;> rfl
  · rfl

theorem facet_applyCriticality (name : String) (criticality : Criticality) :
    (s.applyCriticality name criticality).facet i = s.facet i := by
  cases criticality with
  | background => rfl
  | _ => exact facet_log fun _ => by simp

theorem facet_retire (hasFailed : Bool) : (s.retire id hasFailed).facet i =
    if i = id then (s.facet i).retire id else s.facet i := by
  have hStopped : ((s.setState id .stopped).emit (.stopped id (s.worker id).spec.name)).facet i =
      if i = id then (s.facet i).retire id else s.facet i := by
    rw [facet_emit, facet_setState, WorkerLifecycleEvent.worker]
    split_ifs with hSame
    · rw [hSame]
      rfl
    · rfl
  cases hasFailed with
  | false => exact hStopped
  | true =>
      rw [← hStopped]
      exact (facet_applyCriticality _ _).trans (facet_log fun _ => by simp)

/-- An outcome is settled for its worker alone. -/
theorem facet_handleOutcome (h : id ∈ s.ids) (hPhase : s.phase = .head) (run : Nat)
    (outcome : SupervisorOutcome) (wall : Option Nat) :
    (s.handleOutcome T id run outcome wall).facet i =
      (if i = id then (s.facet i).settle id outcome wall s.clock else s.facet i) ∧
    (s.handleOutcome T id run outcome wall).phase =
      (s.worker id).nextPhase id outcome.hasFailed wall s.clock := by
  let announced := s.announceOutcome id run outcome
  have hFrame : announced.frame = s.frame := frame_announceOutcome run outcome
  have hMem : id ∈ announced.ids := ids_eq hFrame ▸ h
  let advanced := (announced.advanceCircuit id outcome.hasFailed).1
  have hFrame' : advanced.frame = s.frame := (advanceCircuit_spec hMem _).1.trans hFrame
  have hMem' : id ∈ advanced.ids := ids_eq hFrame' ▸ h
  let consulted := (advanced.consultPolicy id outcome.hasFailed wall).1
  have hMem'' : id ∈ consulted.ids := hMem'
  have hClock : consulted.clock = s.clock :=
    clock_eq ((frame_consultPolicy outcome.hasFailed wall).trans hFrame')
  have hWorker : announced.worker = s.worker := announceOutcome_worker run outcome
  have hJudged (k : WorkerId) : consulted.facet k =
      if k = id then (s.facet k).judge id outcome wall s.clock else s.facet k := by
    rw [facet_consultPolicy, facet_advanceCircuit hMem, facet_announceOutcome, clock_eq hFrame]
    split_ifs with hSame
    · subst hSame
      rfl
    · rfl
  have hOwn : consulted.worker id = ((s.facet id).judge id outcome wall s.clock).worker :=
    congrArg Facet.worker ((hJudged id).trans (if_pos rfl))
  have hAdvanced : advanced.worker id = { s.worker id with
      circuit := (s.worker id).circuit.map (·.record outcome.hasFailed s.clock) } := by
    have hFacet := facet_advanceCircuit (i := id) hMem outcome.hasFailed
    rw [if_pos rfl, clock_eq hFrame] at hFacet
    refine (congrArg Facet.worker hFacet).trans ?_
    rw [← hWorker]
    rfl
  have hOpens : (announced.advanceCircuit id outcome.hasFailed).2 =
      (s.worker id).opens outcome.hasFailed s.clock := by
    rw [(reports_advanceCircuit hMem outcome.hasFailed).2, hWorker, clock_eq hFrame]
  have hAttempts : (advanced.consultPolicy id outcome.hasFailed wall).2.2 =
      (s.worker id).attemptsAfter outcome.hasFailed wall := by
    rw [consultPolicy_attempts, hAdvanced]
    rfl
  have hRestarts : ((advanced.consultPolicy id outcome.hasFailed wall).2.1 &&
      !(announced.advanceCircuit id outcome.hasFailed).2) =
        (s.worker id).restarts outcome.hasFailed wall s.clock := by
    rw [consultPolicy_allows, hOpens, hAdvanced]
    rfl
  have hHead : consulted.phase = .head :=
    (advanceCircuit_phase _).trans ((phase_announceOutcome run outcome).trans hPhase)
  simp only [handleOutcome, if_pos h, maybeRestart]
  rw [if_pos hMem']
  simp only [decideRestart]
  rw [hRestarts, hAttempts, Facet.settle, RegisteredWorker.nextPhase]
  cases hDecided : (s.worker id).restarts outcome.hasFailed wall s.clock with
  | true =>
      obtain ⟨hFacet, hNext⟩ := facet_beginRestart (T := T) (i := i) hMem''
        ((s.worker id).attemptsAfter outcome.hasFailed wall)
      rw [if_pos rfl, if_pos rfl, hFacet, hNext, hJudged, hOwn, hClock]
      refine ⟨?_, rfl⟩
      split_ifs with hSame hKept
      · subst hSame
        rfl
      · subst hSame
        exact absurd hDecided hKept
      · rfl
  | false =>
      rw [if_neg Bool.false_ne_true, if_neg Bool.false_ne_true, facet_retire, hJudged, phase_retire,
        hHead]
      refine ⟨?_, rfl⟩
      split_ifs with hSame hKept
      · subst hSame
        exact absurd (hKept.symm.trans hDecided) (by decide)
      · rfl
      · rfl

end Parts

section Tick

theorem facet_tickBreakers (nows : WorkerId → Instant) (h : i ∈ s.ids) :
    (s.tickBreakers nows).facet i = (s.facet i).tick (nows i) := by
  simp [facet, told, flight, tickBreakers, Facet.tick, h]

theorem mem_closedToHalfOpen_iff (nows : WorkerId → Instant) (h : i ∈ s.ids) :
    i ∈ s.closedToHalfOpen nows ↔ (s.worker i).halfOpens (nows i) = true := by
  cases hCircuit : (s.worker i).circuit <;>
    simp [closedToHalfOpen, RegisteredWorker.halfOpens, h, hCircuit]

/-- A trial of an idle worker is a spawn. -/
theorem startTrial_eq (hTasks : s.tasks.Consistent) (hIdle : s.tasks.inFlight id = 0) :
    s.startTrial T id =
      (s.emit (.circuitHalfOpened id (s.worker id).spec.name)).spawnOne T id := by
  simp only [startTrial, spawnOneIfIdle]
  apply if_neg
  intro hNamed
  have hPos := hTasks.named_iff.mp hNamed
  omega

theorem facet_startTrial (hMem : id ∈ s.ids) (hTasks : s.tasks.Consistent)
    (hIdle : s.tasks.inFlight id = 0) : (s.startTrial T id).facet i =
      if i = id then (s.facet i).trial id else s.facet i := by
  let announced := s.emit (.circuitHalfOpened id (s.worker id).spec.name)
  have hMem' : id ∈ announced.ids := hMem
  rw [startTrial_eq hTasks hIdle, facet_spawnOne hMem', facet_emit, WorkerLifecycleEvent.worker]
  split_ifs with hSame
  · subst hSame
    rfl
  · rfl

theorem facet_reportTimeout (timeout : WatchdogTimeout) (h : i ∈ s.ids) :
    (s.reportTimeout timeout).facet i =
      if timeout.id = i then (s.facet i).timeOut timeout else s.facet i := by
  have hEvent := facet_emit (s := s) (i := i)
    (.timeout timeout.id timeout.name timeout.silentFor)
  rw [WorkerLifecycleEvent.worker] at hEvent
  unfold reportTimeout
  simp only []
  by_cases hSame : timeout.id = i
  · have hMem : timeout.id ∈
        (s.emit (.timeout timeout.id timeout.name timeout.silentFor)).ids := hSame ▸ h
    rw [if_pos hSame.symm] at hEvent
    rw [if_pos hSame, if_pos hMem, facet_cancelWorkerToken, if_pos hSame.symm, hEvent,
      Facet.timeOut]
  · rw [if_neg hSame]
    rw [if_neg (Ne.symm hSame)] at hEvent
    split_ifs
    · rw [facet_cancelWorkerToken, if_neg (Ne.symm hSame), hEvent]
    · exact hEvent

theorem facet_reportTimeouts (timeouts : List WatchdogTimeout) (h : i ∈ s.ids) :
    (timeouts.foldl reportTimeout s).facet i =
      (timeouts.filter fun timeout => timeout.id = i).foldl Facet.timeOut (s.facet i) := by
  induction timeouts generalizing s with
  | nil => rfl
  | cons timeout timeouts ih =>
      have hMem : i ∈ (s.reportTimeout timeout).ids := by
        rw [ids_eq (frame_reportTimeout timeout)]
        exact h
      rw [List.foldl_cons, ih hMem, facet_reportTimeout timeout h, List.filter_cons]
      by_cases hSame : timeout.id = i
      · rw [if_pos hSame, if_pos (decide_eq_true hSame), List.foldl_cons]
      · rw [if_neg hSame, if_neg (by simpa using hSame)]

/-- Of the timeouts that a check finds, one at most is the worker's own. -/
theorem timeouts_of_worker (hNodup : s.ids.Nodup) (hMem : i ∈ s.ids)
    (hHandles : ∀ k, (s.worker k).handle.id = k) (now : Int) :
    (Watchdog.check s.watchdogTargets now).filter (fun timeout => timeout.id = i) =
      ((s.worker i).timeout? now).toList := by
  have hCheck : Watchdog.check s.watchdogTargets now =
      s.ids.filterMap fun k => (s.worker k).timeout? now := by
    rw [Watchdog.check, watchdogTargets, List.filterMap_filterMap]
    rfl
  have hOwn : ∀ k timeout, (s.worker k).timeout? now = some timeout → timeout.id = k := by
    intro k timeout hSome
    obtain ⟨target, hTarget, hStale⟩ := Option.bind_eq_some_iff.mp hSome
    obtain ⟨interval, -, rfl⟩ := Option.map_eq_some_iff.mp hTarget
    obtain ⟨-, rfl⟩ := Watchdog.checkTarget_eq_some_iff.mp hStale
    exact hHandles k
  rw [hCheck, List.filter_filterMap]
  refine (filterMap_of_nodup hNodup hMem fun k hNe => ?_).trans ?_
  · cases hFound : (s.worker k).timeout? now with
    | none => rfl
    | some timeout => exact if_neg (by simpa [hOwn k timeout hFound] using hNe)
  · cases hFound : (s.worker i).timeout? now with
    | none => rfl
    | some timeout =>
        exact congrArg Option.toList (if_pos (decide_eq_true (hOwn i timeout hFound)))

theorem facet_watchdogTick (wall : Option Nat) (nows : WorkerId → Instant) (hBooks : Books s)
    (hSupervising : s.Supervising) (hHandles : ∀ k, (s.worker k).handle.id = k) (hMem : i ∈ s.ids) :
    (s.watchdogTick T wall nows).facet i = (s.facet i).watch i wall (nows i) := by
  let ticked := s.tickBreakers nows
  have hTicked : ticked.facet i = (s.facet i).tick (nows i) := facet_tickBreakers nows hMem
  obtain ⟨⟨hFrame, -⟩, hTrials⟩ := foldl_pointwise
    (fun st => st.frame = s.frame ∧ st.tasks.Consistent)
    (fun st k => (st.facet k, st.tasks.inFlight k)) (fun v => v.2 = 0)
    (fun key v => (v.1.trial key, 1)) (f := fun s id => s.startTrial T id) (s := ticked)
    ⟨frame_tickBreakers nows, hBooks.consistent⟩
    (show (s.closedToHalfOpen nows).Nodup from hBooks.nodup.filter _)
    (fun key hKey => by
      obtain ⟨hIn, b, hBreaker, hState, -⟩ := mem_closedToHalfOpen.mp hKey
      exact ((hBooks.balanced hSupervising).2 key hIn).opened b hBreaker hState)
    (by
      rintro st key hKey ⟨hFrame, hConsistent⟩ hIdle
      have hIn : key ∈ st.ids := by
        rw [ids_eq hFrame]
        exact (mem_closedToHalfOpen.mp hKey).1
      obtain ⟨hFrame', hSpawned, -⟩ := startTrial_spec (T := T) hIn hConsistent hIdle
      refine ⟨⟨hFrame'.trans hFrame, ?_⟩, fun k => ?_⟩
      · rw [hSpawned]
        exact hConsistent.spawn hIn
      · rw [facet_startTrial hIn hConsistent hIdle, hSpawned, TaskTable.spawn_inFlight]
        have hCount : st.tasks.inFlight key = 0 := hIdle
        split_ifs with hSame
        · subst hSame
          simp [hCount]
        · rfl)
  let trials := (s.closedToHalfOpen nows).foldl (fun s id => s.startTrial T id) ticked
  have hTrial : trials.facet i =
      if (s.worker i).halfOpens (nows i) then ((s.facet i).tick (nows i)).trial i
      else (s.facet i).tick (nows i) := by
    have hOwn := congrArg Prod.fst (hTrials i)
    simp only [mem_closedToHalfOpen_iff nows hMem] at hOwn
    rw [← hTicked]
    refine hOwn.trans ?_
    split_ifs <;> rfl
  have hMem' : i ∈ trials.ids := by
    rw [ids_eq hFrame]
    exact hMem
  refine (facet_reportTimeouts _ hMem').trans ?_
  rw [timeouts_of_worker hBooks.nodup hMem hHandles, hTrial]
  rfl

end Tick

section Steps

variable {s' : Supervisor} {label : SupervisorLabel}

/-- The task of this run is one of worker `i`'s. -/
def Owns (s : Supervisor) (i : WorkerId) (run : Nat) : Prop :=
  ∃ task ∈ s.findTask run, task.worker = i

instance (s : Supervisor) (i : WorkerId) (run : Nat) : Decidable (s.Owns i run) :=
  inferInstanceAs (Decidable (∃ task ∈ s.findTask run, task.worker = i))

theorem owns_iff {task : Task} {run : Nat} (h : s.findTask run = some task) :
    s.Owns i run ↔ task.worker = i := by
  simp [Owns, h]

/-- What a step makes of the facet of worker `i`. -/
def facetAfter (s : Supervisor) (i : WorkerId) : SupervisorLabel → Facet
  | .start => (s.facet i).spawn i
  | .tick wall nows _ => (s.facet i).watch i wall (nows i)
  | .join run wall now =>
    match (s.findTask run).bind fun task => if task.worker = i then task.outcome else none with
    | some outcome => (s.facet i).land.settle i outcome wall now
    | none => s.facet i
  | .backoffElapsed _ =>
    match s.phase with
    | .backoff id name attempts _ =>
      if i = id then (s.facet i).restart i name attempts else s.facet i
    | _ => s.facet i
  | .cancelObserved _ => (s.facet i).stop i
  | .drain run => if s.Owns i run then (s.facet i).land else s.facet i
  | .drained => (s.facet i).retire i
  | .finish run ending =>
    if s.Owns i run then (s.facet i).finish ((s.worker i).runner.run i ending) else s.facet i
  | .abort run => if s.Owns i run then (s.facet i).finish .cancelled else s.facet i
  | .heartbeat run wall =>
    if s.contexts[run]? = some i then (s.facet i).beat wall else s.facet i
  | .cancelWorker id => if i = id then (s.facet i).cancelToken else s.facet i
  | _ => s.facet i

/-- A loop over the workers in which each pass changes the facet of its own worker. -/
theorem facet_foldl {f : Supervisor → WorkerId → Supervisor} (change : WorkerId → Facet → Facet)
    (hNodup : s.ids.Nodup) (hMem : i ∈ s.ids)
    (hPass : ∀ st id, id ∈ st.ids → (f st id).ids = st.ids ∧
      ∀ k, (f st id).facet k = if k = id then change id (st.facet k) else st.facet k) :
    (s.ids.foldl f s).facet i = change i (s.facet i) := by
  have hFold := (foldl_pointwise (fun st : Supervisor => st.ids = s.ids) facet (fun _ => True) change
    (f := f) rfl hNodup (fun _ _ => trivial) fun st id hKey hIds _ => by
      obtain ⟨hSame, hFacet⟩ := hPass st id (hIds ▸ hKey)
      refine ⟨hSame.trans hIds, fun k => ?_⟩
      rw [hFacet]
      split_ifs with h
      · rw [h]
      · rfl).2 i
  rw [hFold, if_pos hMem]

theorem facet_removeTask (hTasks : s.tasks.Consistent) (hSingle : (s.facet i).flight.length ≤ 1)
    {task : Task} (hIn : task ∈ s.joinSet) : (s.removeTask task).facet i =
      if task.worker = i then (s.facet i).land else s.facet i := by
  obtain ⟨front, back, hSplit, hRest⟩ := hTasks.remove_split hIn
  have hAfter : (s.removeTask task).joinSet = front ++ back := hRest
  have hBefore : s.joinSet = front ++ task :: back := hSplit
  have hFlight : (s.removeTask task).flight i = if task.worker = i then [] else s.flight i := by
    simp only [facet, flight, hBefore] at hSingle
    simp only [flight, hAfter, hBefore]
    by_cases hOwn : task.worker = i
    · rw [if_pos hOwn]
      simp only [List.filter_append, List.filter_cons, hOwn, decide_true, if_true, List.map_append,
        List.map_cons, List.length_append, List.length_cons] at hSingle ⊢
      apply List.eq_nil_of_length_eq_zero
      rw [List.length_append]
      omega
    · rw [if_neg hOwn]
      simp [hOwn]
  split_ifs at hFlight ⊢
  · exact congrArg (Facet.mk _ _) hFlight
  · exact congrArg (Facet.mk _ _) hFlight

theorem facet_endTask (hTasks : s.tasks.Consistent) (hSingle : (s.facet i).flight.length ≤ 1)
    {run : Nat} {task : Task} (hTask : s.findTask run = some task) (result : Task → JoinResult) :
    (s.endTask run result).facet i =
      if task.worker = i then (s.facet i).finish (result task) else s.facet i := by
  obtain ⟨hIn, hRun⟩ := findTask_mem hTask
  obtain ⟨front, back, hBefore⟩ := List.append_of_mem hIn
  have hNodup : (s.joinSet.map Task.run).Nodup := hTasks.numbered
  rw [hBefore, List.map_append, List.map_cons, List.nodup_middle, List.nodup_cons,
    ← List.map_append, hRun] at hNodup
  let f : Task → Task := fun t => if t.run = run then { t with result := some (result t) } else t
  have hSame : ∀ t ∈ front ++ back, f t = t := fun t hMem =>
    if_neg fun hEq => hNodup.1 (List.mem_map.mpr ⟨t, hMem, hEq⟩)
  have hFront : front.map f = front := (List.map_congr_left fun t hMem =>
    hSame t (List.mem_append_left _ hMem)).trans (List.map_id _)
  have hBack : back.map f = back := (List.map_congr_left fun t hMem =>
    hSame t (List.mem_append_right _ hMem)).trans (List.map_id _)
  have hEnded : f task = { task with result := some (result task) } := if_pos hRun
  have hAfter : (s.endTask run result).joinSet =
      front ++ { task with result := some (result task) } :: back := by
    show s.joinSet.map f = _
    rw [hBefore, List.map_append, List.map_cons, hFront, hBack, hEnded]
  have hFlight : (s.endTask run result).flight i =
      if task.worker = i then [some (result task)] else s.flight i := by
    simp only [facet, flight, hBefore] at hSingle
    simp only [flight, hAfter, hBefore]
    by_cases hOwn : task.worker = i
    · rw [if_pos hOwn]
      simp only [List.filter_append, List.filter_cons, hOwn, decide_true, if_true, List.map_append,
        List.map_cons, List.length_append, List.length_cons] at hSingle ⊢
      have hNone : (front.filter fun t => t.worker = i).map Task.result = [] := by
        apply List.eq_nil_of_length_eq_zero
        omega
      have hNone' : (back.filter fun t => t.worker = i).map Task.result = [] := by
        apply List.eq_nil_of_length_eq_zero
        omega
      rw [hNone, hNone']
      rfl
    · rw [if_neg hOwn]
      simp [hOwn]
  split_ifs at hFlight ⊢
  · exact congrArg (Facet.mk _ _) hFlight
  · exact congrArg (Facet.mk _ _) hFlight

/-- Every step changes the facet of a registered worker in the worker's own terms. -/
theorem facet_of_step (hBooks : Books s) (hHandles : ∀ k, (s.worker k).handle.id = k)
    (hSingle : (s.facet i).flight.length ≤ 1) (hStep : SupervisorStep T s label s')
    (hMem : i ∈ s.ids) : s'.facet i = s.facetAfter i label := by
  cases takes_of_step hStep with
  | start hPhase =>
      exact facet_foldl (f := fun s id => s.spawnOne T id) (fun id v => v.spawn id) hBooks.nodup hMem
        fun st id hIn => ⟨ids_eq frame_spawnOne, fun k => facet_spawnOne hIn⟩
  | @tick wall nows after hPhase hNows hClock =>
      have hSupervising : s.Supervising := by
        rcases hPhase with ⟨hPhase, -⟩ | hPhase
        · exact .of_phase hPhase (Or.inl rfl)
        · exact .of_phase hPhase (Or.inr (Or.inl rfl))
      exact facet_watchdogTick wall nows hBooks hSupervising hHandles hMem
  | @join run wall now task result hPhase hRunning hClock hTask hResult =>
      have hIn := (findTask_mem hTask).1
      obtain ⟨outcome, hOutcome, hEnded⟩ := hBooks.outcome_of_head hPhase hIn hResult
      have hOwner : task.worker ∈ ({ s with clock := now }.removeTask task).ids :=
        hBooks.consistent.known task hIn
      have hRemoved : ({ s with clock := now }.removeTask task).facet i =
          if task.worker = i then (s.facet i).land else s.facet i :=
        facet_removeTask (s := { s with clock := now }) hBooks.consistent hSingle hIn
      rw [joined_eq (s := { s with clock := now }) hBooks.consistent hIn hResult hOutcome,
        (facet_handleOutcome hOwner hPhase task.run outcome wall).1, hRemoved]
      simp only [facetAfter, hTask, Option.bind_some, hEnded]
      by_cases hSame : task.worker = i
      · rw [if_pos hSame.symm, if_pos hSame, if_pos hSame, hSame]
        rfl
      · rw [if_neg (Ne.symm hSame), if_neg hSame, if_neg hSame]
  | @backoffElapsed id name attempts due now hPhase hDue hClock =>
      have hIn : id ∈ { s with clock := now }.ids := (hBooks.waiting _ _ _ _ hPhase).1
      rw [facet_restartNow hIn]
      simp only [facetAfter, hPhase]
      split_ifs with hSame
      · rw [hSame]
        rfl
      · rfl
  | cancelObserved hPhase hCancelled hClock =>
      refine facet_foldl (f := stopWorker) (fun id v => v.stop id) hBooks.nodup hMem
        fun st id hIn => ⟨rfl, fun k => ?_⟩
      rw [stopWorker, facet_emit, facet_cancelWorkerToken, facet_setState,
        WorkerLifecycleEvent.worker]
      split_ifs <;> rfl
  | drained hPhase hEmpty =>
      refine facet_foldl (f := markStopped) (fun id v => v.retire id) hBooks.nodup hMem
        fun st id hIn => ⟨rfl, fun k => ?_⟩
      rw [markStopped, facet_emit, facet_setState, WorkerLifecycleEvent.worker]
      split_ifs with hSame
      · rw [hSame]
        rfl
      · rfl
  | @heartbeat run wall id hContext =>
      refine (facet_log fun _ => by simp).trans ?_
      rw [facet_modifyWorker, facetAfter, hContext]
      by_cases hSame : i = id
      · rw [if_pos hSame, if_pos (by rw [hSame])]
        rfl
      · rw [if_neg hSame, if_neg (by simpa using Ne.symm hSame)]
  | @drain run drained aborted deadline task result hPhase hTask hResult =>
      refine (facet_removeTask hBooks.consistent hSingle (findTask_mem hTask).1).trans ?_
      simp only [facetAfter, owns_iff hTask]
  | @drainAborting run drained aborted task result hPhase hTask hResult =>
      refine (facet_removeTask hBooks.consistent hSingle (findTask_mem hTask).1).trans ?_
      simp only [facetAfter, owns_iff hTask]
  | @finish run ending task hTask hRunning =>
      refine (facet_endTask hBooks.consistent hSingle hTask _).trans ?_
      simp only [facetAfter, owns_iff hTask]
      split_ifs with hSame
      · rw [hSame]
      · rfl
  | @abort run drained aborted task hPhase hTask hRunning =>
      refine (facet_endTask hBooks.consistent hSingle hTask _).trans ?_
      simp only [facetAfter, owns_iff hTask]
  | cancel => exact facet_log fun _ => by simp
  | cancelWorker hMem' => exact (facet_log fun _ => by simp).trans facet_cancelWorkerToken
  | _ => rfl

/-- What the steps that are no part of a worker's life may do to its facet. -/
inductive Aside (v : Facet) : Facet → Prop where
  | same : Aside v v
  | lands : Aside v v.land
  | finishes {result : JoinResult} : Aside v (v.finish result)
  | beats {wall : Option Nat} : Aside v (v.beat wall)
  | cancels : Aside v v.cancelToken

theorem facetAfter_drain (s : Supervisor) (i : WorkerId) (run : Nat) :
    Aside (s.facet i) (s.facetAfter i (.drain run)) := by
  simp only [facetAfter]
  split_ifs
  · exact .lands
  · exact .same

theorem facetAfter_of_spared (h : s.Spares i label) : Aside (s.facet i) (s.facetAfter i label) := by
  cases label with
  | start | tick | cancelObserved | drained => exact h.elim
  | join run wall now =>
      have hNone : ((s.findTask run).bind fun task =>
          if task.worker = i then task.outcome else none) = none := by
        cases hTask : s.findTask run with
        | none => rfl
        | some task => exact if_neg (h task hTask)
      simp only [facetAfter, hNone]
      exact .same
  | backoffElapsed now =>
      simp only [facetAfter]
      split
      · rename_i id name attempts due hPhase
        have hNe : i ≠ id := by
          rintro rfl
          exact h _ _ _ hPhase
        rw [if_neg hNe]
        exact .same
      · exact .same
  | drain run => exact facetAfter_drain s i run
  | finish run ending =>
      simp only [facetAfter]
      split_ifs
      · exact .finishes
      · exact .same
  | abort run =>
      simp only [facetAfter]
      split_ifs
      · exact .finishes
      · exact .same
  | heartbeat run wall =>
      simp only [facetAfter]
      split_ifs
      · exact .beats
      · exact .same
  | cancelWorker id =>
      simp only [facetAfter]
      split_ifs
      · exact .cancels
      · exact .same
  | _ => exact .same

end Steps

end Supervisor

namespace Facet

variable (v : Facet) (id : WorkerId) (wall : Option Nat) (now : Instant)

theorem settle_flight (outcome : SupervisorOutcome) :
    (v.settle id outcome wall now).flight.length ≤ v.flight.length + 1 := by
  unfold settle resume
  simp only []
  split_ifs
  · exact Nat.le_of_eq (List.length_append ..)
  · exact Nat.le_succ _
  · exact Nat.le_succ _

theorem watch_flight : (v.watch id wall now).flight =
    if v.worker.halfOpens now then v.flight ++ [none] else v.flight := by
  unfold watch
  cases v.worker.timeout? (unixNanos wall) with
  | none =>
      simp only [Option.toList_none, List.foldl_nil]
      split_ifs <;> rfl
  | some timeout =>
      simp only [Option.toList_some, List.foldl_cons, List.foldl_nil, timeOut, cancelToken, tell]
      split_ifs <;> rfl

end Facet

namespace Supervisor

variable {T : TaskIds} {s s' : Supervisor} {i : WorkerId} {label : SupervisorLabel}

theorem flight_length (s : Supervisor) (i : WorkerId) :
    (s.facet i).flight.length = (s.life i).runs.length := by
  simp [facet, flight, life]

/-- The books are kept, every handle has the id it was registered under, and no worker has
more than one task in the join set. -/
structure Faceted (s : Supervisor) : Prop extends s.Audited where
  handles : ∀ k, (s.worker k).handle.id = k
  single : ∀ i ∈ s.ids, (s.facet i).flight.length ≤ 1

theorem Faceted.facet_eq (h : s.Faceted) (hStep : SupervisorStep T s label s') (hMem : i ∈ s.ids) :
    s'.facet i = s.facetAfter i label :=
  facet_of_step h.books h.handles (h.single i hMem) hStep hMem

/-- A worker gets a task only once it has none. -/
theorem Faceted.single_step (h : s.Faceted) (hStep : SupervisorStep T s label s') (hMem : i ∈ s.ids) :
    (s.facetAfter i label).flight.length ≤ 1 := by
  have hStands := h.stands i hMem
  have hSingle := h.single i hMem
  have hEmpty (hRuns : (s.life i).runs = []) : (s.facet i).flight = [] := by
    apply List.eq_nil_of_length_eq_zero
    rw [flight_length, hRuns]
    rfl
  have hAside (hAside : Aside (s.facet i) (s.facetAfter i label)) :
      (s.facetAfter i label).flight.length ≤ 1 := by
    generalize s.facetAfter i label = v at hAside
    cases hAside with
    | same | beats | cancels => exact hSingle
    | lands => exact Nat.zero_le _
    | finishes => exact Nat.le_refl _
  cases lifeStep_of_step h.books hStep hMem with
  | begun hFrom =>
      rw [Stands, hFrom] at hStands
      cases hStands with
      | fresh _ hRuns _ =>
          simp [facetAfter, Facet.spawn, hEmpty hRuns]
  | ticked _ hFrom | tried _ hFrom =>
      simp only [facetAfter, Facet.watch_flight]
      split_ifs with hHalf
      · have hListed := (mem_closedToHalfOpen_iff _ hMem).mpr hHalf
        obtain ⟨_, hRuns, _⟩ := hStands.rests h.books hMem hFrom (closedToHalfOpen_suppressed hListed)
        simp [hEmpty hRuns]
      · exact hSingle
  | settled hFrom hTask hOwner hOutcome =>
      simp only [facetAfter, hTask, Option.bind_some, if_pos hOwner, hOutcome]
      exact Facet.settle_flight ..
  | resumed hFrom =>
      obtain ⟨_, hRuns, _⟩ := hStands.waits hFrom
      simp [facetAfter, hFrom, Facet.restart, Facet.spawn, Facet.tell, hEmpty hRuns]
  | stopping => exact hSingle
  | joinedLate => exact hAside (facetAfter_drain s i _)
  | stopped => exact hSingle
  | spared hSpares => exact hAside (facetAfter_of_spared hSpares)

theorem Faceted.step (h : s.Faceted) (hStep : SupervisorStep T s label s') : s'.Faceted where
  toAudited := h.toAudited.step hStep
  handles k := ((steady_step h.books hStep).handleId k).trans (h.handles k)
  single i hMem := by
    rw [(steady_step h.books hStep).ids] at hMem
    rw [h.facet_eq hStep hMem]
    exact h.single_step hStep hMem

theorem faceted_new (roster : Roster) : (new roster).Faceted :=
  ⟨audited_new roster, fun _ => rfl, fun _ _ => Nat.zero_le _⟩

theorem faceted_of_reachable {roster : Roster}
    (reach : Reachable (SupervisorStep T) (new roster) s) : s.Faceted :=
  reach.invariant Faceted (faceted_new roster) fun _ _ _ h hStep => h.step hStep

end Supervisor

end ServiceKernel
