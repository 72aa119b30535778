import ServiceKernel.Semantics.History
import ServiceKernel.Shutdown.Sequence

/-! What the history of a shutdown coordinator says at each stage of the sequence: who
claimed it, which hooks were registered, taken and run, and how long was waited. -/
namespace ServiceKernel

open Interleaving Execution

namespace CoordinatorRecord

def claim? : CoordinatorRecord → Option Bool
  | .completed wasDone => some wasDone
  | _ => none

def announced? : CoordinatorRecord → Option Unit
  | .emitted (.shutdownStarted _) => some ()
  | _ => none

def closed? : CoordinatorRecord → Option Unit
  | .emitted (.shutdownCompleted ..) => some ()
  | _ => none

def panic? : CoordinatorRecord → Option Unit
  | .hookFinished _ _ ⟨.panicked, _⟩ => some ()
  | _ => none

def registered? : CoordinatorRecord → Option ShutdownHook
  | .hookRegistered hook => some hook
  | _ => none

def taken? : CoordinatorRecord → Option (List ShutdownHook)
  | .hooksTaken hooks => some hooks
  | _ => none

def hookStart? : CoordinatorRecord → Option ShutdownHook
  | .hookStarted hook _ => some hook
  | _ => none

/-- How a hook ended. -/
def ended? : CoordinatorRecord → Option (ShutdownHook × HookOutcome)
  | .hookFinished hook _ ended => some (hook, ended.outcome)
  | _ => none

/-- A reading of the standard library's clock. -/
def reading? : CoordinatorRecord → Option Instant
  | .stdRead now => some now
  | _ => none

/-- How long a hook was awaited. -/
def wait? : CoordinatorRecord → Option Nat
  | .hookFinished _ startedAt ended => some (ended.instant - startedAt)
  | _ => none

end CoordinatorRecord

section Pick

variable {Thread : Type} {α : Type} {f : CoordinatorRecord → Option α}
  {trace : List (Thread × CoordinatorRecord)}

/-- What the records of a history say under one heading, in order. -/
def pick (f : CoordinatorRecord → Option α) (trace : List (Thread × CoordinatorRecord)) : List α :=
  trace.filterMap fun e => f e.2

@[simp] theorem pick_nil : pick f ([] : List (Thread × CoordinatorRecord)) = [] := rfl

@[simp] theorem pick_concat (e : Thread × CoordinatorRecord) :
    pick f (trace ++ [e]) = pick f trace ++ (f e.2).toList := by
  cases h : f e.2 <;> simp [pick, h]

/-- The last time a thread asked for the sequence, whether it had been claimed before. -/
def lastClaim [DecidableEq Thread] (t : Thread) (trace : List (Thread × CoordinatorRecord)) :
    Option Bool :=
  (trace.filterMap fun e => if e.1 = t then e.2.claim? else none).getLast?

end Pick

/-- What holds of each record, given those before it. -/
def CoordinatorLaw {Thread : Type} (grace : Duration) (past : List (Thread × CoordinatorRecord))
    (e : Thread × CoordinatorRecord) : Prop :=
  match e.2 with
  | .completed true => false ∈ pick CoordinatorRecord.claim? past
  | .emitted (.shutdownCompleted ..) => pick CoordinatorRecord.announced? past = [()]
  | .hooksTaken hooks => hooks = pick CoordinatorRecord.registered? past
  | .hookStarted _ _ => ∃ start now, (pick CoordinatorRecord.reading? past).head? = some start ∧
      (pick CoordinatorRecord.reading? past).getLast? = some now ∧ now < start + grace.nanos
  | _ => True

/-- The deadline counts from the first reading, which is in the past. -/
def HookRun.Dated (grace : Duration) (clock : Instant) (readings : List Instant) (r : HookRun) :
    Prop :=
  r.start.checkedAdd grace = some r.deadline ∧ readings.head? = some r.start ∧ r.start ≤ clock

theorem HookRun.Dated.deadline_eq {grace : Duration} {clock : Instant} {readings : List Instant}
    {r : HookRun} (h : r.Dated grace clock readings) : r.deadline = r.start + grace.nanos := by
  have hSum := h.1
  simp only [Instant.checkedAdd, Option.ite_none_right_eq_some, Option.some.injEq] at hSum
  exact hSum.2.symm

namespace SequenceStage

def claims : SequenceStage → Nat
  | unclaimed => 0
  | _ => 1

def announcements : SequenceStage → Nat
  | unclaimed => 0
  | claimed _ => 0
  | overflowed _ => 0
  | timed _ => 0
  | _ => 1

def completions : SequenceStage → Nat
  | reported .. => 1
  | _ => 0

def panics : SequenceStage → Nat
  | panicked _ => 1
  | _ => 0

/-- The lists of hooks that were taken so far. -/
def takes : SequenceStage → List (List ShutdownHook)
  | looping r => [r.taken]
  | ready r _ => [r.taken]
  | waiting r _ _ => [r.taken]
  | panicked r => [r.taken]
  | closing r _ => [r.results.map Prod.fst]
  | reported r _ => [r.results.map Prod.fst]
  | _ => []

def hooksStarted : SequenceStage → List ShutdownHook
  | looping r => r.ran
  | ready r _ => r.ran
  | waiting r _ _ => r.ran ++ r.pending.head?.toList
  | panicked r => r.ran ++ r.pending.head?.toList
  | closing r _ => r.ran
  | reported r _ => r.ran
  | _ => []

def outcomes : SequenceStage → List (ShutdownHook × HookOutcome)
  | looping r => outcomesOf r.results
  | ready r _ => outcomesOf r.results
  | waiting r _ _ => outcomesOf r.results
  | panicked r => outcomesOf r.results ++ r.pending.head?.toList.map fun hook => (hook, .panicked)
  | closing r _ => outcomesOf r.results
  | reported r _ => outcomesOf r.results
  | _ => []

/-- The clock, the readings of it and the time spent waiting on hooks fit the stage. -/
def Timed (grace : Duration) (clock : Instant) (readings : List Instant) (waited : Nat) :
    SequenceStage → Prop
  | unclaimed => readings = [] ∧ waited = 0
  | claimed _ => readings = [] ∧ waited = 0
  | overflowed start => readings = [start] ∧ start.checkedAdd grace = none ∧ waited = 0
  | timed r => r.Dated grace clock readings ∧ waited = 0 ∧ r.results = []
  | announced r => r.Dated grace clock readings ∧ waited = 0 ∧ r.results = []
  | signalled r => r.Dated grace clock readings ∧ waited = 0 ∧ r.results = []
  | looping r => r.Dated grace clock readings ∧ waited ≤ clock - r.start ∧ waited ≤ grace.nanos
  | ready r now => r.Dated grace clock readings ∧ readings.getLast? = some now ∧ r.start ≤ now ∧
      now ≤ clock ∧ now < r.deadline ∧ waited ≤ now - r.start
  | waiting r now hookStartedAt => r.Dated grace clock readings ∧ r.start ≤ now ∧
      now ≤ hookStartedAt ∧ hookStartedAt ≤ clock ∧ now < r.deadline ∧ waited ≤ now - r.start
  | panicked r => r.Dated grace clock readings ∧ waited ≤ grace.nanos
  | closing r _ => r.Dated grace clock readings ∧ waited ≤ grace.nanos
  | reported r _ => r.Dated grace clock readings ∧ waited ≤ grace.nanos

end SequenceStage

section Timed

variable {grace : Duration} {clock clock' : Instant} {readings : List Instant} {waited : Nat}
  {r : HookRun} {stage : SequenceStage}

theorem HookRun.Dated.mono (h : r.Dated grace clock readings) (hClock : clock ≤ clock') :
    r.Dated grace clock' readings :=
  ⟨h.1, h.2.1, Nat.le_trans h.2.2 hClock⟩

theorem HookRun.Dated.reads (h : r.Dated grace clock readings) (now : Instant) :
    r.Dated grace clock (readings ++ [now]) := by
  refine ⟨h.1, ?_, h.2.2⟩
  have hFirst := h.2.1
  cases readings with
  | nil => cases hFirst
  | cons first rest => exact hFirst

/-- Time may pass at any stage. -/
theorem SequenceStage.Timed.mono (h : stage.Timed grace clock readings waited)
    (hClock : clock ≤ clock') : stage.Timed grace clock' readings waited := by
  cases stage with
  | unclaimed | claimed | overflowed => exact h
  | timed r | announced r | signalled r | panicked r | closing r | reported r =>
      exact ⟨h.1.mono hClock, h.2⟩
  | looping r =>
      have hLe : clock - r.start ≤ clock' - r.start := Nat.sub_le_sub_right hClock _
      exact ⟨h.1.mono hClock, Nat.le_trans h.2.1 hLe, h.2.2⟩
  | ready r now =>
      obtain ⟨hDated, hLast, hStart, hNow, hRest⟩ := h
      exact ⟨hDated.mono hClock, hLast, hStart, Nat.le_trans hNow hClock, hRest⟩
  | waiting r now hookStartedAt =>
      obtain ⟨hDated, hStart, hNow, hHook, hRest⟩ := h
      exact ⟨hDated.mono hClock, hStart, hNow, Nat.le_trans hHook hClock, hRest⟩

end Timed

section Runs

variable {r : HookRun} {hook : ShutdownHook} {rest : List ShutdownHook} {result : Option HookFailure}

theorem HookRun.settle_cons (result : Option HookFailure) (h : r.pending.head? = some hook) :
    (r.settle result).results = r.results ++ [(hook, result)] ∧
      (r.settle result).taken = r.taken ∧ (r.settle result).start = r.start ∧
      (r.settle result).deadline = r.deadline := by
  obtain ⟨startedAt, start, deadline, pending, results⟩ := r
  cases pending with
  | nil => cases h
  | cons first rest =>
      obtain rfl := Option.some.inj h
      simp [settle, taken]

theorem HookRun.ran_settle (h : r.pending.head? = some hook) :
    (r.settle result).ran = r.ran ++ if result = some .deadlineExpired then [] else [hook] := by
  rw [ran, (settle_cons _ h).1, ran, ranOf, List.filterMap_append]
  split <;> simp_all [ranOf]

theorem HookRun.outcomes_settle (h : r.pending.head? = some hook) :
    outcomesOf (r.settle result).results = outcomesOf r.results ++ outcomesOf [(hook, result)] := by
  rw [(settle_cons _ h).1, outcomesOf, List.filterMap_append]
  rfl

theorem HookRun.Dated.settle {grace : Duration} {clock : Instant} {readings : List Instant}
    (h : r.Dated grace clock readings) (hHook : r.pending.head? = some hook) :
    (r.settle result).Dated grace clock readings := by
  obtain ⟨-, -, hStart, hDeadline⟩ := HookRun.settle_cons result hHook
  exact ⟨by rw [hStart, hDeadline, h.1], by rw [hStart, h.2.1], by rw [hStart]; exact h.2.2⟩

end Runs

abbrev CoordinatorWorld (Thread : Type) := World Thread (Clocked CoordinatorInner) CoordinatorRecord

section Accounted

variable {Thread : Type} {grace : Duration} {stage stage' : SequenceStage}
  {w : CoordinatorWorld Thread} {t : Thread}

/-- The state and the history of a coordinator fit a stage of the sequence. -/
structure Accounted (grace : Duration) (stage : SequenceStage) (w : CoordinatorWorld Thread) :
    Prop where
  flag : w.shared.state.completed = decide (stage ≠ .unclaimed)
  claims : (pick CoordinatorRecord.claim? w.trace).count false = stage.claims
  announced : (pick CoordinatorRecord.announced? w.trace).length = stage.announcements
  closed : (pick CoordinatorRecord.closed? w.trace).length = stage.completions
  panics : (pick CoordinatorRecord.panic? w.trace).length = stage.panics
  queued : stage.takes = [] → w.shared.state.hooks = pick CoordinatorRecord.registered? w.trace
  takes : pick CoordinatorRecord.taken? w.trace = stage.takes
  started : pick CoordinatorRecord.hookStart? w.trace = stage.hooksStarted
  outcomes : pick CoordinatorRecord.ended? w.trace = stage.outcomes
  timing : stage.Timed grace w.shared.clock (pick CoordinatorRecord.reading? w.trace)
    (pick CoordinatorRecord.wait? w.trace).sum
  lawful : Every (CoordinatorLaw grace) w.trace

theorem accounted_start (grace : Duration) (clock : Instant) :
    Accounted grace .unclaimed (⟨⟨.new, clock⟩, []⟩ : CoordinatorWorld Thread) where
  flag := rfl
  claims := rfl
  announced := rfl
  closed := rfl
  panics := rfl
  queued _ := rfl
  takes := rfl
  started := rfl
  outcomes := rfl
  timing := ⟨rfl, rfl⟩
  lawful := every_nil

/-- One more record, whose every heading takes the stage to the next one. -/
theorem Accounted.after (h : Accounted grace stage w) {r : CoordinatorRecord}
    {shared : Clocked CoordinatorInner}
    (hFlag : shared.state.completed = decide (stage' ≠ .unclaimed))
    (hClaims : stage'.claims = stage.claims + r.claim?.toList.count false)
    (hAnnounced : stage'.announcements = stage.announcements + r.announced?.toList.length)
    (hClosed : stage'.completions = stage.completions + r.closed?.toList.length)
    (hPanics : stage'.panics = stage.panics + r.panic?.toList.length)
    (hQueued : stage'.takes = [] → stage.takes = [] ∧
      shared.state.hooks = w.shared.state.hooks ++ r.registered?.toList)
    (hTakes : stage'.takes = stage.takes ++ r.taken?.toList)
    (hStarted : stage'.hooksStarted = stage.hooksStarted ++ r.hookStart?.toList)
    (hOutcomes : stage'.outcomes = stage.outcomes ++ r.ended?.toList)
    (hTiming : stage'.Timed grace shared.clock
      (pick CoordinatorRecord.reading? w.trace ++ r.reading?.toList)
      ((pick CoordinatorRecord.wait? w.trace).sum + r.wait?.toList.sum))
    (hLaw : CoordinatorLaw grace w.trace (t, r)) :
    Accounted grace stage' ⟨shared, w.trace ++ [(t, r)]⟩ where
  flag := hFlag
  claims := by rw [pick_concat, List.count_append, h.claims, hClaims]
  announced := by rw [pick_concat, List.length_append, h.announced, hAnnounced]
  closed := by rw [pick_concat, List.length_append, h.closed, hClosed]
  panics := by rw [pick_concat, List.length_append, h.panics, hPanics]
  queued hNone := by
    obtain ⟨hBefore, hHooks⟩ := hQueued hNone
    rw [pick_concat, ← h.queued hBefore, hHooks]
  takes := by rw [pick_concat, h.takes, hTakes]
  started := by rw [pick_concat, h.started, hStarted]
  outcomes := by rw [pick_concat, h.outcomes, hOutcomes]
  timing := by
    rw [pick_concat, pick_concat, List.sum_append]
    exact hTiming
  lawful := every_concat.mpr ⟨h.lawful, hLaw⟩

/-- A record under no heading, at a later time. -/
theorem Accounted.unheaded (h : Accounted grace stage w) {r : CoordinatorRecord}
    {shared : Clocked CoordinatorInner} (hState : shared.state = w.shared.state)
    (hClock : w.shared.clock ≤ shared.clock)
    (hNone : r.claim? = none ∧ r.announced? = none ∧ r.closed? = none ∧ r.panic? = none ∧
      r.registered? = none ∧ r.taken? = none ∧ r.hookStart? = none ∧ r.ended? = none ∧
      r.reading? = none ∧ r.wait? = none)
    (hLaw : CoordinatorLaw grace w.trace (t, r)) :
    Accounted grace stage ⟨shared, w.trace ++ [(t, r)]⟩ := by
  obtain ⟨h1, h2, h3, h4, h5, h6, h7, h8, h9, h10⟩ := hNone
  have hTiming := h.timing.mono hClock
  refine h.after (by rw [hState, h.flag]) ?_ ?_ ?_ ?_ (fun hTakes => ⟨hTakes, ?_⟩) ?_ ?_ ?_ ?_ hLaw
  · simp [h1]
  · simp [h2]
  · simp [h3]
  · simp [h4]
  · simp [h5, hState]
  · simp [h6]
  · simp [h7]
  · simp [h8]
  · simpa [h9, h10] using hTiming

/-- Time passes without a record. -/
theorem Accounted.wait (h : Accounted grace stage w) {clock : Instant}
    (hClock : w.shared.clock ≤ clock) :
    Accounted grace stage ⟨⟨w.shared.state, clock⟩, w.trace⟩ :=
  { h with timing := h.timing.mono hClock }

section Steps

variable {shared : Clocked CoordinatorInner}

theorem Clocked.reads_some {c c' : Clocked CoordinatorInner} {now : Instant}
    (h : c.reads now = some c') : c.clock ≤ now ∧ c' = ⟨c.state, now⟩ := by
  simp only [Clocked.reads, Option.ite_none_right_eq_some, Option.some.injEq] at h
  exact ⟨h.1, h.2.symm⟩

/-- The reading that the deadline counts from. -/
theorem Accounted.timed {startedAt : Instant} (h : Accounted grace (.claimed startedAt) w)
    {now : Instant} (hExec : w.shared.reads now = some shared) :
    Accounted grace (match now.checkedAdd grace with
      | none => .overflowed now
      | some deadline => .timed ⟨startedAt, now, deadline, [], []⟩)
      ⟨shared, w.trace ++ [(t, .stdRead now)]⟩ := by
  obtain ⟨hClock, rfl⟩ := Clocked.reads_some hExec
  obtain ⟨hReadings, hWaited⟩ := h.timing
  cases hDeadline : now.checkedAdd grace with
  | none =>
      refine h.after h.flag rfl rfl rfl rfl (fun hTakes => ⟨hTakes, ?_⟩) rfl rfl rfl ?_ trivial
      · simp [CoordinatorRecord.registered?]
      · simp [CoordinatorRecord.reading?, CoordinatorRecord.wait?, SequenceStage.Timed, hReadings,
          hWaited, hDeadline]
  | some deadline =>
      refine h.after h.flag rfl rfl rfl rfl (fun hTakes => ⟨hTakes, ?_⟩) rfl rfl rfl ?_ trivial
      · simp [CoordinatorRecord.registered?]
      · simp [CoordinatorRecord.reading?, CoordinatorRecord.wait?, SequenceStage.Timed, hReadings,
          hWaited, HookRun.Dated, hDeadline]

/-- The sequence takes every hook registered so far. -/
theorem Accounted.takesHooks {r : HookRun} (h : Accounted grace (.signalled r) w)
    {hooks : List ShutdownHook} (hHooks : hooks = w.shared.state.hooks) :
    Accounted grace (.looping { r with pending := hooks })
      ⟨{ w.shared with state.hooks := [] }, w.trace ++ [(t, .hooksTaken hooks)]⟩ := by
  obtain ⟨hDated, hWaited, hResults⟩ := h.timing
  refine h.after h.flag rfl rfl rfl rfl (fun hTakes => by cases hTakes) ?_ ?_ ?_ ?_ ?_
  · simp [SequenceStage.takes, CoordinatorRecord.taken?, HookRun.taken, hResults]
  · simp [SequenceStage.hooksStarted, CoordinatorRecord.hookStart?, HookRun.ran, ranOf, hResults]
  · simp [SequenceStage.outcomes, CoordinatorRecord.ended?, outcomesOf, hResults]
  · refine ⟨⟨hDated.1, ?_, hDated.2.2⟩, ?_, ?_⟩
    · simpa [CoordinatorRecord.reading?] using hDated.2.1
    · simp [CoordinatorRecord.wait?, hWaited]
    · simp [CoordinatorRecord.wait?, hWaited]
  · exact hHooks.trans (h.queued rfl)

/-- The reading before each hook: it is passed over, or there is time left for it. -/
theorem Accounted.looks {r : HookRun} (h : Accounted grace (.looping r) w) {hook : ShutdownHook}
    (hHook : r.pending.head? = some hook) {now : Instant} (hExec : w.shared.reads now = some shared) :
    Accounted grace (if r.deadline - now = 0 then .looping (r.settle (some .deadlineExpired))
      else .ready r now) ⟨shared, w.trace ++ [(t, .stdRead now)]⟩ := by
  obtain ⟨hClock, rfl⟩ := Clocked.reads_some hExec
  obtain ⟨hDated, hWaited, hGrace⟩ := h.timing.mono hClock
  split
  · obtain ⟨-, hTaken, hStart, -⟩ := HookRun.settle_cons (some .deadlineExpired) hHook
    refine h.after h.flag rfl rfl rfl rfl (fun hTakes => by cases hTakes) ?_ ?_ ?_ ?_ trivial
    · simp [SequenceStage.takes, CoordinatorRecord.taken?, hTaken]
    · simp [SequenceStage.hooksStarted, CoordinatorRecord.hookStart?, HookRun.ran_settle hHook]
    · rw [SequenceStage.outcomes, HookRun.outcomes_settle hHook]
      rfl
    · refine ⟨(hDated.reads now).settle hHook, ?_, ?_⟩
      · rw [hStart]
        simpa [CoordinatorRecord.wait?] using hWaited
      · simpa [CoordinatorRecord.wait?] using hGrace
  · rename_i hTime
    have hStart : r.start ≤ now := Nat.le_trans h.timing.1.2.2 hClock
    refine h.after h.flag rfl rfl rfl rfl (fun hTakes => by cases hTakes) ?_ ?_ ?_ ?_ trivial
    · simp [SequenceStage.takes, CoordinatorRecord.taken?]
    · simp [SequenceStage.hooksStarted, CoordinatorRecord.hookStart?]
    · simp [SequenceStage.outcomes, CoordinatorRecord.ended?]
    · refine ⟨hDated.reads now, by simp [CoordinatorRecord.reading?], hStart, Nat.le_refl _, ?_, ?_⟩
      · exact Nat.lt_of_sub_ne_zero hTime
      · simpa [CoordinatorRecord.wait?] using hWaited

theorem Accounted.startsHook {r : HookRun} {now : Instant} (h : Accounted grace (.ready r now) w)
    {hook : ShutdownHook} (hHook : r.pending.head? = some hook) {hookStartedAt : Instant}
    (hExec : w.shared.reads hookStartedAt = some shared) :
    Accounted grace (.waiting r now hookStartedAt)
      ⟨shared, w.trace ++ [(t, .hookStarted hook hookStartedAt)]⟩ := by
  obtain ⟨hClock, rfl⟩ := Clocked.reads_some hExec
  obtain ⟨hDated, hLast, hStart, hNow, hTime, hWaited⟩ := h.timing
  refine h.after h.flag rfl rfl rfl rfl (fun hTakes => by cases hTakes) ?_ ?_ ?_ ?_ ?_
  · simp [SequenceStage.takes, CoordinatorRecord.taken?]
  · simp [SequenceStage.hooksStarted, CoordinatorRecord.hookStart?, hHook]
  · simp [SequenceStage.outcomes, CoordinatorRecord.ended?]
  · refine ⟨?_, hStart, Nat.le_trans hNow hClock, Nat.le_refl _, hTime, ?_⟩
    · simpa [CoordinatorRecord.reading?] using hDated.mono hClock
    · simpa [CoordinatorRecord.wait?] using hWaited
  · exact ⟨r.start, now, hDated.2.1, hLast, by rw [← hDated.deadline_eq]; exact hTime⟩

theorem HookOutcome.result_ne_expired {outcome : HookOutcome} {remaining : Nat}
    {result : Option HookFailure} (h : outcome.result remaining = some result) :
    result ≠ some .deadlineExpired := by
  rintro rfl
  cases outcome <;> simp [HookOutcome.result] at h

theorem HookOutcome.outcomesOf_result {hook : ShutdownHook} {outcome : HookOutcome} {remaining : Nat}
    {result : Option HookFailure} (h : outcome.result remaining = some result) :
    outcomesOf [(hook, result)] = [(hook, outcome)] := by
  cases outcome with
  | panicked => cases h
  | _ =>
      obtain rfl := Option.some.inj h
      rfl

/-- A hook without a result has panicked. -/
theorem HookOutcome.result_eq_none {outcome : HookOutcome} {remaining : Nat} :
    outcome.result remaining = none ↔ outcome = .panicked := by
  cases outcome <;> simp [result]

theorem CoordinatorRecord.panic?_hookFinished (hook : ShutdownHook) (startedAt : Instant)
    (ended : HookEnd) (remaining : Nat) :
    (CoordinatorRecord.hookFinished hook startedAt ended).panic? =
      if ended.outcome.result remaining = none then some () else none := by
  obtain ⟨outcome, instant⟩ := ended
  cases outcome <;> rfl

/-- The time spent on one more hook still fits into the grace period, and into the time
that has passed. -/
theorem waits_fit {waited start now hook ended deadline grace : Nat}
    (hGrace : deadline = start + grace) (hStart : start ≤ now) (hNow : now ≤ hook)
    (hHook : hook ≤ ended) (hTime : now < deadline) (hWaited : waited ≤ now - start)
    (hLimit : ended ≤ hook + (deadline - now)) :
    waited + (ended - hook) ≤ grace ∧ waited + (ended - hook) ≤ ended - start := by
  omega

/-- A hook ends within what was left of the grace period when it was started. -/
theorem Accounted.finishesHook {r : HookRun} {now hookStartedAt : Instant}
    (h : Accounted grace (.waiting r now hookStartedAt) w) {hook : ShutdownHook}
    (hHook : r.pending.head? = some hook) {ended : HookEnd}
    (hLimit : ended.instant ≤ hookStartedAt + (r.deadline - now))
    (hExec : w.shared.reads ended.instant = some shared) :
    Accounted grace (match ended.outcome.result (r.deadline - now) with
      | some result => .looping (r.settle result)
      | none => .panicked r)
      ⟨shared, w.trace ++ [(t, .hookFinished hook hookStartedAt ended)]⟩ := by
  obtain ⟨hClock, rfl⟩ := Clocked.reads_some hExec
  obtain ⟨hDated, hStart, hNow, hHookClock, hTime, hWaited⟩ := h.timing
  obtain ⟨hTotal, hPassed⟩ := waits_fit hDated.deadline_eq hStart hNow (Nat.le_trans hHookClock hClock) hTime
    hWaited hLimit
  cases hResult : ended.outcome.result (r.deadline - now) with
  | none =>
      refine h.after h.flag rfl rfl rfl ?_ (fun hTakes => by cases hTakes) ?_ ?_ ?_ ?_ trivial
      · simp [SequenceStage.panics, CoordinatorRecord.panic?_hookFinished _ _ _ (r.deadline - now),
          hResult]
      · simp [SequenceStage.takes, CoordinatorRecord.taken?]
      · simp [SequenceStage.hooksStarted, CoordinatorRecord.hookStart?]
      · simp [SequenceStage.outcomes, CoordinatorRecord.ended?, hHook,
          HookOutcome.result_eq_none.mp hResult]
      · refine ⟨?_, ?_⟩
        · simpa [CoordinatorRecord.reading?] using hDated.mono hClock
        · simpa [CoordinatorRecord.wait?] using hTotal
  | some result =>
      have hNotExpired := HookOutcome.result_ne_expired hResult
      obtain ⟨-, hTaken, hSame, -⟩ := HookRun.settle_cons result hHook
      refine h.after h.flag rfl rfl rfl ?_ (fun hTakes => by cases hTakes) ?_ ?_ ?_ ?_ trivial
      · simp [SequenceStage.panics, CoordinatorRecord.panic?_hookFinished _ _ _ (r.deadline - now),
          hResult]
      · simp [SequenceStage.takes, CoordinatorRecord.taken?, hTaken]
      · simp [SequenceStage.hooksStarted, CoordinatorRecord.hookStart?, HookRun.ran_settle hHook,
          hNotExpired, hHook]
      · rw [SequenceStage.outcomes, HookRun.outcomes_settle hHook, HookOutcome.outcomesOf_result hResult]
        rfl
      · refine ⟨?_, ?_, ?_⟩
        · simpa [CoordinatorRecord.reading?] using (hDated.mono hClock).settle hHook
        · rw [hSame]
          simpa [CoordinatorRecord.wait?] using hPassed
        · simpa [CoordinatorRecord.wait?] using hTotal

end Steps

section Positions

variable {shared : Clocked CoordinatorInner} {o : CoordinatorOp} {a : CoordinatorSig.Ans o}

/-- The call that performs the sequence may do what the protocol permits, and the account
keeps up with it. -/
theorem Accounted.inside (h : Accounted grace stage w)
    (hPermits : (shutdownProtocol grace).Permits (.inside stage) o)
    (hExec : (coordinatorMachine Thread).exec t o a w.shared = some shared) :
    ∃ stage', stage.next grace o a = some stage' ∧ stage' ≠ .unclaimed ∧
      Accounted grace stage' ((coordinatorMachine Thread).after w t o a shared) := by
  obtain ⟨a', hSome⟩ := hPermits
  have hStage : (stage.next grace o a').isSome := by
    simpa [SequencePosition.next] using hSome
  cases o with
  | now =>
      simp only [SequenceStage.next] at hStage
      split at hStage
      · rename_i r
        have hPending : r.pending = [] := by
          by_contra hNot
          simp [hNot] at hStage
        obtain ⟨hClock, rfl⟩ := Clocked.reads_some hExec
        refine ⟨.closing r a, by simp [SequenceStage.next, hPending], by simp, ?_⟩
        refine h.after h.flag rfl rfl rfl rfl (fun hTakes => by cases hTakes) ?_ ?_ ?_ ?_ trivial
        · simp [SequenceStage.takes, CoordinatorRecord.taken?, coordinatorMachine, HookRun.taken,
            hPending]
        · simp [SequenceStage.hooksStarted, CoordinatorRecord.hookStart?, coordinatorMachine]
        · simp [SequenceStage.outcomes, CoordinatorRecord.ended?, coordinatorMachine]
        · have hTiming := h.timing.mono hClock
          exact ⟨by simpa [CoordinatorRecord.reading?, coordinatorMachine] using hTiming.1,
            by simpa [CoordinatorRecord.wait?, coordinatorMachine] using hTiming.2.2⟩
      · cases hStage
  | stdNow =>
      simp only [SequenceStage.next] at hStage
      split at hStage
      · rename_i startedAt
        have hNext := h.timed (t := t) hExec
        refine ⟨_, ?_, ?_, hNext⟩
        · simp only [SequenceStage.next]
          cases Instant.checkedAdd a grace <;> rfl
        · split <;> simp
      · rename_i r
        have hPending : r.pending ≠ [] := by
          intro hNil
          simp [hNil] at hStage
        obtain ⟨hook, hHook⟩ := Option.isSome_iff_exists.mp (List.isSome_head?.mpr hPending)
        have hNext := h.looks (t := t) hHook hExec
        refine ⟨_, ?_, ?_, hNext⟩
        · simp only [SequenceStage.next, if_neg hPending]
          split <;> rfl
        · split <;> simp
      · cases hStage
  | emit event =>
      obtain rfl := Option.some.inj hExec
      simp only [SequenceStage.next] at hStage
      split at hStage
      · rename_i r
        have hEvent : event = .shutdownStarted r.startedAt := by
          by_contra hNot
          simp [hNot] at hStage
        subst hEvent
        refine ⟨.announced r, by simp [SequenceStage.next], by simp, ?_⟩
        refine h.after h.flag rfl rfl rfl rfl (fun hTakes => ⟨hTakes, ?_⟩) rfl rfl rfl ?_ trivial
        · simp [CoordinatorRecord.registered?, coordinatorMachine]
        · exact ⟨by simpa [CoordinatorRecord.reading?, coordinatorMachine] using h.timing.1,
            by simpa [CoordinatorRecord.wait?, coordinatorMachine] using h.timing.2⟩
      · rename_i r completedAt
        have hEvent : event = (r.report completedAt).completed := by
          by_contra hNot
          simp [hNot] at hStage
        subst hEvent
        refine ⟨.reported r completedAt, by simp [SequenceStage.next], by simp, ?_⟩
        refine h.after h.flag rfl rfl rfl rfl (fun hTakes => by cases hTakes) ?_ ?_ ?_ ?_ ?_
        · simp [SequenceStage.takes, CoordinatorRecord.taken?, coordinatorMachine]
        · simp [SequenceStage.hooksStarted, CoordinatorRecord.hookStart?, coordinatorMachine]
        · simp [SequenceStage.outcomes, CoordinatorRecord.ended?, coordinatorMachine]
        · exact ⟨by simpa [CoordinatorRecord.reading?, coordinatorMachine] using h.timing.1,
            by simpa [CoordinatorRecord.wait?, coordinatorMachine] using h.timing.2⟩
        · obtain ⟨u, hOne⟩ := List.length_eq_one_iff.mp h.announced
          exact hOne
      · cases hStage
  | signalToken =>
      obtain rfl := Option.some.inj hExec
      simp only [SequenceStage.next] at hStage
      split at hStage
      · rename_i r
        refine ⟨.signalled r, rfl, by simp, ?_⟩
        refine h.after h.flag rfl rfl rfl rfl (fun hTakes => ⟨hTakes, ?_⟩) rfl rfl rfl ?_ trivial
        · simp [CoordinatorRecord.registered?, coordinatorMachine]
        · exact ⟨by simpa [CoordinatorRecord.reading?, coordinatorMachine] using h.timing.1,
            by simpa [CoordinatorRecord.wait?, coordinatorMachine] using h.timing.2⟩
      · cases hStage
  | takeHooks =>
      simp only [coordinatorMachine, Option.ite_none_right_eq_some, Option.some.injEq] at hExec
      obtain ⟨hHooks, rfl⟩ := hExec
      simp only [SequenceStage.next] at hStage
      split at hStage
      · rename_i r
        exact ⟨_, rfl, by simp, h.takesHooks hHooks⟩
      · cases hStage
  | startHook hook =>
      simp only [SequenceStage.next] at hStage
      split at hStage
      · rename_i r now
        have hHook : r.pending.head? = some hook := by
          by_contra hNot
          simp [hNot] at hStage
        exact ⟨.waiting r now a, by simp [SequenceStage.next, hHook], by simp,
          h.startsHook hHook hExec⟩
      · cases hStage
  | finishHook hook startedAt remaining =>
      simp only [SequenceStage.next] at hStage
      split at hStage
      · rename_i r now hookStartedAt
        obtain ⟨hHook, rfl, rfl⟩ : r.pending.head? = some hook ∧ startedAt = hookStartedAt ∧
            remaining = r.deadline - now := by
          by_contra hNot
          simp [hNot] at hStage
        simp only [coordinatorMachine, Option.ite_none_right_eq_some] at hExec
        refine ⟨_, ?_, ?_, h.finishesHook hHook hExec.1 hExec.2⟩
        · simp only [SequenceStage.next, hHook, and_self, if_true]
          cases a.outcome.result (r.deadline - now) <;> rfl
        · split <;> simp
      · cases hStage
  | markCompleted | registerHook => cases hStage

/-- Outside the sequence only the first to ask for it gets in. -/
theorem Accounted.outside (h : Accounted grace stage w) {p : SequencePosition}
    (hOutside : ∀ s, p ≠ .inside s) (hPermits : (shutdownProtocol grace).Permits p o)
    (hExec : (coordinatorMachine Thread).exec t o a w.shared = some shared) :
    (∃ p', p.next grace o a = some p' ∧ (∀ s, p' ≠ .inside s) ∧
        Accounted grace stage ((coordinatorMachine Thread).after w t o a shared)) ∨
      (stage = .unclaimed ∧ ∃ startedAt, p.next grace o a = some (.inside (.claimed startedAt)) ∧
        Accounted grace (.claimed startedAt) ((coordinatorMachine Thread).after w t o a shared)) := by
  obtain ⟨a', hSome⟩ := hPermits
  cases p with
  | inside s => exact absurd rfl (hOutside s)
  | outside =>
      cases o with
      | now =>
          obtain ⟨hClock, rfl⟩ := Clocked.reads_some hExec
          exact Or.inl ⟨.entered a, rfl, by simp,
            h.unheaded rfl hClock ⟨rfl, rfl, rfl, rfl, rfl, rfl, rfl, rfl, rfl, rfl⟩ trivial⟩
      | signalToken =>
          obtain rfl := Option.some.inj hExec
          refine Or.inl ⟨.outside, rfl, by simp, ?_⟩
          exact h.after h.flag rfl rfl rfl rfl (fun hTakes => ⟨hTakes, (List.append_nil _).symm⟩)
            (List.append_nil _).symm (List.append_nil _).symm (List.append_nil _).symm
            (by simpa [coordinatorMachine, CoordinatorRecord.reading?, CoordinatorRecord.wait?]
              using h.timing) trivial
      | registerHook hook =>
          obtain rfl := Option.some.inj hExec
          refine Or.inl ⟨.outside, rfl, by simp, ?_⟩
          exact h.after h.flag rfl rfl rfl rfl (fun hTakes => ⟨hTakes, rfl⟩)
            (List.append_nil _).symm (List.append_nil _).symm (List.append_nil _).symm
            (by simpa [coordinatorMachine, CoordinatorRecord.reading?, CoordinatorRecord.wait?]
              using h.timing) trivial
      | _ => cases hSome
  | entered startedAt =>
      cases o with
      | markCompleted =>
          simp only [coordinatorMachine, Option.ite_none_right_eq_some, Option.some.injEq] at hExec
          obtain ⟨hAnswer, rfl⟩ := hExec
          have hFlag := h.flag
          cases a with
          | true =>
              have hClaimed : stage ≠ .unclaimed := of_decide_eq_true (hFlag.symm.trans hAnswer.symm)
              have hClaims : stage.claims = 1 := by
                cases stage with
                | unclaimed => exact absurd rfl hClaimed
                | _ => rfl
              refine Or.inl ⟨.late startedAt, rfl, by simp, ?_⟩
              refine h.after ?_ rfl rfl rfl rfl (fun hTakes => ⟨hTakes, (List.append_nil _).symm⟩)
                (List.append_nil _).symm (List.append_nil _).symm (List.append_nil _).symm ?_ ?_
              · exact (decide_eq_true hClaimed).symm
              · simpa [coordinatorMachine, CoordinatorRecord.reading?, CoordinatorRecord.wait?]
                  using h.timing
              · apply List.count_pos_iff.mp
                rw [h.claims, hClaims]
                exact Nat.one_pos
          | false =>
              obtain rfl : stage = .unclaimed := by
                simpa using hFlag.symm.trans hAnswer.symm
              refine Or.inr ⟨rfl, startedAt, rfl, ?_⟩
              refine h.after rfl rfl rfl rfl rfl (fun _ => ⟨rfl, (List.append_nil _).symm⟩) rfl rfl rfl ?_
                trivial
              simpa [coordinatorMachine, CoordinatorRecord.reading?, CoordinatorRecord.wait?,
                SequenceStage.Timed] using h.timing
      | _ => cases hSome
  | late startedAt =>
      cases o with
      | now =>
          obtain ⟨hClock, rfl⟩ := Clocked.reads_some hExec
          exact Or.inl ⟨.lateRead startedAt a, rfl, by simp,
            h.unheaded rfl hClock ⟨rfl, rfl, rfl, rfl, rfl, rfl, rfl, rfl, rfl, rfl⟩ trivial⟩
      | _ => cases hSome
  | lateRead startedAt completedAt => cases hSome

end Positions

end Accounted

end ServiceKernel
