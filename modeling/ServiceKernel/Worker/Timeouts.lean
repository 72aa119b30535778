import ServiceKernel.Worker.Bookkeeping
import ServiceKernel.Worker.Routine

/-! Which workers the watchdog reports. It inspects the heartbeat cell of every
registered worker; the cell belongs to the registration and outlives a run. -/
namespace ServiceKernel

open Execution

namespace SupervisorRecord

def timeoutOf : SupervisorRecord → Option WatchdogTimeout
  | .event (.timeout id name silentFor) => some ⟨id, name, silentFor⟩
  | _ => none

/-- A heartbeat of the given run. -/
def isHeartbeat (id : WorkerId) (run : Nat) : SupervisorRecord → Bool
  | .heartbeat i r _ => i = id ∧ r = run
  | _ => false

end SupervisorRecord

/-- The latest heartbeat through any context of the worker. -/
def latestHeartbeat (id : WorkerId) (history : List SupervisorRecord) : Option Int :=
  history.foldl (fun latest record => match record with
    | .heartbeat i _ nanos => if id = i then some nanos else latest
    | _ => latest) none

@[simp] theorem latestHeartbeat_concat (id : WorkerId) (history : List SupervisorRecord)
    (record : SupervisorRecord) : latestHeartbeat id (history ++ [record]) = match record with
      | .heartbeat i _ nanos => if id = i then some nanos else latestHeartbeat id history
      | _ => latestHeartbeat id history := by
  simp only [latestHeartbeat, List.foldl_append, List.foldl_cons, List.foldl_nil]

namespace Supervisor

variable {T : TaskIds} {s s' : Supervisor} {id : WorkerId} {label : SupervisorLabel}

/-- A heartbeat cell holds the latest heartbeat, and zero before the first. -/
def CellsCurrent (s : Supervisor) : Prop :=
  ∀ id, (s.worker id).lastHeartbeat = (latestHeartbeat id s.history).getD 0

theorem CellsCurrent.log (h : s.CellsCurrent) {record : SupervisorRecord}
    (hRecord : ∀ i run nanos, record ≠ .heartbeat i run nanos) : (s.log record).CellsCurrent := by
  intro id
  have hCell := h id
  rw [Supervisor.log, latestHeartbeat_concat]
  cases record with
  | heartbeat i run nanos => exact absurd rfl (hRecord i run nanos)
  | _ => exact hCell

theorem cellsCurrent_durable : Durable T CellsCurrent where
  workers hCells h id := by
    rw [(hCells id).lastHeartbeat]
    exact h id
  log {_ record} hPlain h := h.log fun i run nanos hSame => by
    subst hSame
    exact hPlain
  tasks h := h
  control h := h
  spawn {s id} _ h := by
    intro i
    have hCell := h i
    rw [spawnTask, latestHeartbeat_concat]
    exact hCell
  announce {s id run outcome} h := by
    have hEvent : ((s.log (.handled id run outcome)).emit
        (outcome.event id (s.worker id).spec.name)).CellsCurrent :=
      (h.log fun _ _ _ hSame => by cases hSame).log fun _ _ _ hSame => by cases hSame
    unfold announceOutcome
    simp only []
    split_ifs
    · exact hEvent.log fun _ _ _ hSame => by cases hSame
    · exact hEvent
  restart h := (h.log fun _ _ _ hSame => by cases hSame).log fun _ _ _ hSame => by cases hSame
  escalate h := escalate_keeps (fun {_ record} hRecord h => h.log fun i run nanos hSame => by
    subst hSame
    exact hRecord) h
  timeout {s timeout} h := by
    have hEvent : (s.emit (.timeout timeout.id timeout.name timeout.silentFor)).CellsCurrent :=
      h.log fun _ _ _ hSame => by cases hSame
    unfold reportTimeout
    simp only []
    split_ifs
    · intro i
      rcases eq_or_ne i timeout.id with rfl | hne
      · simpa [cancelWorkerToken, modifyWorker] using hEvent timeout.id
      · simpa [cancelWorkerToken, modifyWorker, hne] using hEvent i
    · exact hEvent
  stopping {s id} _ h := by
    intro i
    rcases eq_or_ne i id with rfl | hne
    · simpa [cancelWorkerToken, modifyWorker] using h i
    · simpa [cancelWorkerToken, modifyWorker, hne] using h i
  heartbeat {s id run nanos} _ h := by
    intro i
    rw [Supervisor.log, latestHeartbeat_concat]
    rcases eq_or_ne i id with rfl | hne
    · simp [modifyWorker]
    · simpa [modifyWorker, hne] using h i
  cancel {s} h := CellsCurrent.log (s := { s with cancelled := true }) h
    fun _ _ _ hSame => by cases hSame
  cancelWorker {s id} _ h := by
    refine CellsCurrent.log (fun i => ?_) fun _ _ _ hSame => by cases hSame
    rcases eq_or_ne i id with rfl | hne
    · simpa [cancelWorkerToken, modifyWorker] using h i
    · simpa [cancelWorkerToken, modifyWorker, hne] using h i

/-- The timeouts reported so far, in order. -/
def timeouts (s : Supervisor) : List WatchdogTimeout := s.history.filterMap (·.timeoutOf)

theorem timeouts_of_routine (h : s.Routinely s') : s'.timeouts = s.timeouts := by
  apply h.filterMap_eq
  intro record hRecord
  cases record with
  | event event => cases event <;> first | rfl | exact hRecord.elim
  | _ => rfl

theorem timeouts_reportTimeout (timeout : WatchdogTimeout) :
    (s.reportTimeout timeout).timeouts = s.timeouts ++ [timeout] := by
  have hReported : (s.emit (.timeout timeout.id timeout.name timeout.silentFor)).timeouts =
      s.timeouts ++ [timeout] := by
    simp [timeouts, emit, log, SupervisorRecord.timeoutOf]
  unfold reportTimeout
  simp only []
  split_ifs <;> exact hReported

/-- A tick reports what the check finds in the state before the tick. -/
theorem timeouts_watchdogTick (wall : Option Nat) (nows : WorkerId → Instant) :
    (s.watchdogTick T wall nows).timeouts =
      s.timeouts ++ Watchdog.check s.watchdogTargets (unixNanos wall) := by
  have hReports : ∀ (reported : List WatchdogTimeout) (st : Supervisor),
      (reported.foldl reportTimeout st).timeouts = st.timeouts ++ reported := by
    intro reported
    induction reported with
    | nil => simp
    | cons timeout rest ih =>
        intro st
        rw [List.foldl_cons, ih, timeouts_reportTimeout, List.append_assoc, List.singleton_append]
  have hTrials := timeouts_of_routine (routinely_trials (T := T) (s := s) nows)
  exact (hReports _ _).trans (by rw [hTrials])

/-- The watchdog's alarm at a worker: its cell is stale by the code's check. -/
def Alarms (s : Supervisor) (now : Int) (id : WorkerId) : Prop :=
  ∃ interval, (s.worker id).spec.heartbeatInterval = some interval ∧
    Watchdog.Stale interval (s.worker id).lastHeartbeat now

theorem mem_check_targets {now : Int} {timeout : WatchdogTimeout} :
    timeout ∈ Watchdog.check s.watchdogTargets now ↔ ∃ id ∈ s.ids, s.Alarms now id ∧
      timeout = ⟨(s.worker id).handle.id, (s.worker id).spec.name,
        .fromNanos (u64FromNanos (now - (s.worker id).lastHeartbeat))⟩ := by
  simp only [Watchdog.check, watchdogTargets, List.mem_filterMap, Option.map_eq_some_iff, Alarms]
  constructor
  · rintro ⟨target, ⟨id, hMem, interval, hInterval, rfl⟩, hCheck⟩
    obtain ⟨hStale, rfl⟩ := Watchdog.checkTarget_eq_some_iff.mp hCheck
    exact ⟨id, hMem, ⟨interval, hInterval, hStale⟩, rfl⟩
  · rintro ⟨id, hMem, ⟨interval, hInterval, hStale⟩, rfl⟩
    exact ⟨_, ⟨id, hMem, interval, hInterval, rfl⟩,
      Watchdog.checkTarget_eq_some_iff.mpr ⟨hStale, rfl⟩⟩

/-- The worker has a task in flight that has itself heartbeated. -/
def Attended (s : Supervisor) (id : WorkerId) : Prop :=
  ∃ task ∈ s.joinSet, task.worker = id ∧ ∃ record ∈ s.history, record.isHeartbeat id task.run = true

instance (s : Supervisor) (id : WorkerId) : Decidable (s.Attended id) :=
  inferInstanceAs (Decidable (∃ task ∈ s.joinSet, task.worker = id ∧
    ∃ record ∈ s.history, record.isHeartbeat id task.run = true))

/-- A report is justified: before the tick the worker has a task in flight, the task
has heartbeated, and the worker's latest heartbeat is more than two intervals ago. -/
def Justified (s : Supervisor) (now : Int) (id : WorkerId) : Prop :=
  s.Attended id ∧ ∃ interval latest, (s.worker id).spec.heartbeatInterval = some interval ∧
    latestHeartbeat id s.history = some latest ∧ 2 * (interval.nanos : Int) < now - latest

end Supervisor

/-- Every timeout that a tick reports is justified. -/
def TimeoutsJustified (s : Supervisor) (label : SupervisorLabel) (s' : Supervisor) : Prop :=
  match label with
  | .tick wall _ _ => ∀ timeout ∈ s'.timeouts.drop s.timeouts.length,
      s.Justified (unixNanos wall) timeout.id
  | _ => True

/-- A tick finds a stale cell only where a task in flight has itself heartbeated,
and only for an interval that fits an `i64` of nanoseconds. -/
def AlarmsAttended (s : Supervisor) (label : SupervisorLabel) : Prop :=
  match label with
  | .tick wall _ _ => ∀ id ∈ s.ids, s.Alarms (unixNanos wall) id → s.Attended id ∧
      ∀ interval, (s.worker id).spec.heartbeatInterval = some interval → interval.nanos < 2 ^ 63
  | _ => True

namespace Supervisor

variable {T : TaskIds} {s s' : Supervisor} {id : WorkerId} {label : SupervisorLabel}

/-- What ties the cells to the registrations and to the history. -/
structure CellsKept (s : Supervisor) : Prop where
  books : s.Books
  handleId : ∀ i, (s.worker i).handle.id = i
  current : s.CellsCurrent

theorem cellsKept_new (roster : Roster) : (new roster).CellsKept :=
  ⟨books_new roster, fun _ => rfl, fun _ => rfl⟩

theorem cellsKept_step (h : s.CellsKept) (hStep : SupervisorStep T s label s') : s'.CellsKept :=
  ⟨books_step h.books hStep, fun i => ((steady_step h.books hStep).handleId i).trans (h.handleId i),
    cellsCurrent_durable.step h.current hStep⟩

/-- For a worker whose cell is stale, the two conditions agree. -/
theorem justified_iff_of_alarms (h : s.CellsKept) {wall : Option Nat}
    (hAlarm : s.Alarms (unixNanos wall) id) : s.Justified (unixNanos wall) id ↔
      s.Attended id ∧ ∀ interval, (s.worker id).spec.heartbeatInterval = some interval →
        interval.nanos < 2 ^ 63 := by
  obtain ⟨interval, hInterval, hStale⟩ := hAlarm
  have hSilent := Watchdog.silent_iff_of_stale (unixNanos_le wall) hStale
  obtain ⟨latest, hLatest, hCell⟩ : ∃ latest, latestHeartbeat id s.history = some latest ∧
      (s.worker id).lastHeartbeat = latest := by
    have hCurrent := h.current id
    cases hLatest : latestHeartbeat id s.history with
    | none =>
        rw [hLatest] at hCurrent
        exact absurd hStale.1 (by rw [hCurrent]; decide)
    | some latest => exact ⟨latest, rfl, by rw [hCurrent, hLatest]; rfl⟩
  rw [hCell] at hSilent
  constructor
  · rintro ⟨hAttended, interval', latest', hInterval', hLatest', hLong⟩
    obtain rfl := Option.some.inj (hLatest.symm.trans hLatest')
    obtain rfl := Option.some.inj (hInterval.symm.trans hInterval')
    refine ⟨hAttended, fun other hOther => ?_⟩
    obtain rfl := Option.some.inj (hInterval.symm.trans hOther)
    exact hSilent.mp hLong
  · rintro ⟨hAttended, hFits⟩
    exact ⟨hAttended, interval, latest, hInterval, hLatest, hSilent.mpr (hFits interval hInterval)⟩

theorem timeoutsJustified_iff (h : s.CellsKept) (hStep : SupervisorStep T s label s') :
    TimeoutsJustified s label s' ↔ AlarmsAttended s label := by
  cases label with
  | tick wall nows after =>
      have hNew : s'.timeouts.drop s.timeouts.length =
          Watchdog.check s.watchdogTargets (unixNanos wall) := by
        cases takes_of_step hStep with
        | tick =>
            have hTick := timeouts_watchdogTick (T := T) (s := s) wall nows
            exact (congrArg (List.drop _) hTick).trans List.drop_left
      simp only [TimeoutsJustified, AlarmsAttended, hNew, mem_check_targets]
      constructor
      · intro hAll id hMem hAlarm
        have hJustified := hAll _ ⟨id, hMem, hAlarm, rfl⟩
        simp only [h.handleId] at hJustified
        exact (justified_iff_of_alarms h hAlarm).mp hJustified
      · rintro hAll timeout ⟨id, hMem, hAlarm, rfl⟩
        simp only [h.handleId]
        exact (justified_iff_of_alarms h hAlarm).mpr (hAll id hMem hAlarm)
  | _ => exact Iff.rfl

end Supervisor

/-- The runs in which every timeout is justified are exactly the runs whose ticks
find stale cells only at attended workers with intervals that fit an `i64`. -/
theorem timeouts_justified_iff (T : TaskIds) (roster : Roster) (labels : List SupervisorLabel)
    (finish : Supervisor) :
    Runs (Guarded (SupervisorStep T) TimeoutsJustified) (.new roster) labels finish ↔
      Runs (Restrict (SupervisorStep T) AlarmsAttended) (.new roster) labels finish :=
  runs_guarded_iff_restrict Supervisor.CellsKept (Supervisor.cellsKept_new roster)
    (fun _ _ _ h hStep => Supervisor.cellsKept_step h hStep)
    fun _ _ _ h hStep => Supervisor.timeoutsJustified_iff h hStep

/-- A run heartbeats and returns; five seconds later its successor, which has not
heartbeated yet, is reported for the silence of the cell it inherited. -/
theorem restarted_worker_reported : ¬ ∀ s label s',
    Reachable (SupervisorStep .counting) (.new (.single .watched .sync)) s →
      SupervisorStep .counting s label s' → TimeoutsJustified s label s' := by
  intro hClaim
  obtain ⟨s, s', hRun, hStep, hReported, hUnattended⟩ : ∃ s s',
      replay (Supervisor.exec .counting) (.new (.single .watched .sync))
        [.start, .heartbeat 0 (some 1), .finish 0 .ok, .join 0 (some 2) 1] = some s ∧
      SupervisorStep .counting s (.tick (some 5000000001) (fun _ => 2) 2) s' ∧
      (∃ timeout ∈ s'.timeouts.drop s.timeouts.length, timeout.id = 1) ∧ ¬ s.Attended 1 :=
    ⟨_, _, rfl, rfl, ⟨_, List.mem_singleton_self _, rfl⟩, by decide⟩
  obtain ⟨timeout, hMem, hId⟩ := hReported
  have hJustified := hClaim s _ s' (runs_of_replay hRun).reachable hStep timeout hMem
  exact hUnattended (hId ▸ hJustified.1)

end ServiceKernel
