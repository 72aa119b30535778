import ServiceKernel.Shutdown.Accounting

/-! Any number of threads registering hooks with one coordinator and asking it to shut
down: one call performs the sequence, and its report accounts for every hook it took. -/
namespace ServiceKernel

open Interleaving Execution

inductive CoordinatorCall where
  | registerHook (hook : ShutdownHook)
  | shutdown
  deriving DecidableEq

/-- A `shutdown` that unwinds returns no report. -/
inductive CoordinatorReturn where
  | registered
  | shutdown (report : Option ShutdownReport)
  deriving DecidableEq

def coordinatorBody (grace : Duration) : CoordinatorCall → Program CoordinatorSig CoordinatorReturn
  | .registerHook hook => do (CoordinatorOp.registerHook hook).call; return .registered
  | .shutdown => do return .shutdown (← coordinatorShutdown grace)

abbrev CoordinatorConfig (Thread : Type) :=
  Config CoordinatorSig Thread (Clocked CoordinatorInner) CoordinatorRecord CoordinatorCall
    CoordinatorReturn

abbrev CoordinatorStep (Thread : Type) [DecidableEq Thread] (grace : Duration) :
    CoordinatorConfig Thread → Label CoordinatorSig Thread CoordinatorCall →
    CoordinatorConfig Thread → Prop :=
  Step (coordinatorMachine Thread) (coordinatorBody grace)

def CoordinatorConfig.fresh (Thread : Type) (clock : Instant) : CoordinatorConfig Thread :=
  Config.start ⟨⟨.new, clock⟩, []⟩

/-- The sequence is not under way: it was not asked for yet, or it ended. -/
def SequenceStage.AtRest : SequenceStage → Prop
  | unclaimed => True
  | overflowed _ => True
  | panicked _ => True
  | reported .. => True
  | _ => False

namespace SequencePosition

def stage? : SequencePosition → Option SequenceStage
  | inside stage => some stage
  | _ => none

/-- What a thread has learnt of who performs the sequence. -/
def Claims (claim : Option Bool) : SequencePosition → Prop
  | late _ => claim = some true
  | lateRead .. => claim = some true
  | inside _ => claim = some false
  | _ => True

theorem stage?_eq_some {p : SequencePosition} {stage : SequenceStage} :
    p.stage? = some stage ↔ p = .inside stage := by
  cases p <;> simp [stage?]

theorem stage?_eq_none {p : SequencePosition} : p.stage? = none ↔ ∀ stage, p ≠ .inside stage := by
  cases p <;> simp [stage?]

end SequencePosition

section Typed

variable {Thread : Type} {grace : Duration} {stage : SequenceStage} {p p' : SequencePosition}
  {w : CoordinatorWorld Thread} {t u : Thread} {o : CoordinatorOp} {a : CoordinatorSig.Ans o}

theorem SequencePosition.claims_next (T : Type) {claim : Option Bool} (h : p.Claims claim)
    (hNext : p.next grace o a = some p') :
    p'.Claims ((((coordinatorMachine T).event o a).claim?).or claim) := by
  cases p with
  | inside stage =>
      obtain ⟨stage', hStage, rfl⟩ := Option.map_eq_some_iff.mp hNext
      cases o with
      | markCompleted | registerHook => cases hStage
      | _ => exact h
  | entered startedAt =>
      cases o with
      | markCompleted =>
          obtain rfl := Option.some.inj hNext
          cases a <;> rfl
      | _ => cases hNext
  | outside =>
      cases o with
      | now | signalToken | registerHook =>
          obtain rfl := Option.some.inj hNext
          trivial
      | _ => cases hNext
  | late startedAt =>
      cases o with
      | now =>
          obtain rfl := Option.some.inj hNext
          exact h
      | _ => cases hNext
  | lateRead => cases hNext

variable [DecidableEq Thread]

theorem lastClaim_concat (trace : List (Thread × CoordinatorRecord)) (r : CoordinatorRecord) :
    lastClaim t (trace ++ [(u, r)]) =
      if u = t then r.claim?.or (lastClaim t trace) else lastClaim t trace := by
  simp only [lastClaim, List.filterMap_append]
  split
  · cases h : r.claim? <;> simp [*]
  · simp [*]

/-- The positions of all threads fit the one sequence of the coordinator. -/
structure SequenceHeld (grace : Duration) (stage : SequenceStage)
    (pos : Thread → SequencePosition) (w : CoordinatorWorld Thread) : Prop where
  accounted : Accounted grace stage w
  sole : Sole (fun t => (pos t).stage?) stage
  entered : ∀ t, pos t ≠ .inside .unclaimed
  claims : ∀ t, (pos t).Claims (lastClaim t w.trace)
  underway : (∃ t, pos t = .inside stage) ∨ stage.AtRest

variable {pos : Thread → SequencePosition} {shared : Clocked CoordinatorInner}

theorem SequenceHeld.claims_after (h : SequenceHeld grace stage pos w)
    (hNext : (pos t).next grace o a = some p) (u : Thread) :
    (Function.update pos t p u).Claims
      (lastClaim u ((coordinatorMachine Thread).after w t o a shared).trace) := by
  rw [Machine.after_trace, lastClaim_concat]
  rcases eq_or_ne u t with rfl | hne
  · simpa using SequencePosition.claims_next Thread (h.claims u) hNext
  · simpa [hne, hne.symm] using h.claims u

theorem SequencePosition.stage?_update (t : Thread) (p : SequencePosition) :
    (fun u => (Function.update pos t p u).stage?) =
      Function.update (fun u => (pos u).stage?) t p.stage? := by
  funext u
  rcases eq_or_ne u t with rfl | hne
  · simp
  · simp [hne]

/-- A permitted operation of one thread. -/
theorem SequenceHeld.keeps (h : SequenceHeld grace stage pos w)
    (hPermits : (shutdownProtocol grace).Permits (pos t) o)
    (hExec : (coordinatorMachine Thread).exec t o a w.shared = some shared) :
    ∃ p, (pos t).next grace o a = some p ∧ ∃ stage', SequenceHeld grace stage'
      (Function.update pos t p) ((coordinatorMachine Thread).after w t o a shared) := by
  by_cases hInside : ∃ s, pos t = .inside s
  · obtain ⟨s, hPos⟩ := hInside
    obtain rfl := h.sole.at_place t s (SequencePosition.stage?_eq_some.mpr hPos)
    rw [hPos] at hPermits
    obtain ⟨stage', hStage, hEntered, hAfter⟩ := h.accounted.inside hPermits hExec
    have hNext : (pos t).next grace o a = some (.inside stage') := by
      rw [hPos]
      exact congrArg (Option.map SequencePosition.inside) hStage
    refine ⟨_, hNext, stage', hAfter, ?_, fun u => ?_, h.claims_after hNext, Or.inl ⟨t, by simp⟩⟩
    · rw [SequencePosition.stage?_update]
      exact Sole.move fun u hne => h.sole.free (t := t) (by simp [hPos, SequencePosition.stage?]) hne
    · rcases eq_or_ne u t with rfl | hne
      · simpa using hEntered
      · simpa [hne] using h.entered u
  · have hOutside : ∀ s, pos t ≠ .inside s := fun s hPos => hInside ⟨s, hPos⟩
    rcases h.accounted.outside hOutside hPermits hExec with
      ⟨p, hNext, hStill, hAfter⟩ | ⟨rfl, startedAt, hNext, hAfter⟩
    · refine ⟨p, hNext, stage, hAfter, ?_, fun u => ?_, h.claims_after hNext, ?_⟩
      · rw [SequencePosition.stage?_update, SequencePosition.stage?_eq_none.mpr hStill]
        exact h.sole.leave t
      · rcases eq_or_ne u t with rfl | hne
        · simpa using hStill .unclaimed
        · simpa [hne] using h.entered u
      · refine h.underway.imp_left fun ⟨u, hPos⟩ => ⟨u, ?_⟩
        rwa [Function.update_of_ne]
        rintro rfl
        exact hOutside stage hPos
    · refine ⟨_, hNext, _, hAfter, ?_, fun u => ?_, h.claims_after hNext, Or.inl ⟨t, by simp⟩⟩
      · rw [SequencePosition.stage?_update]
        refine Sole.move fun u hne => SequencePosition.stage?_eq_none.mpr fun s hPos => ?_
        obtain rfl := h.sole.at_place u s (SequencePosition.stage?_eq_some.mpr hPos)
        exact h.entered u hPos
      · rcases eq_or_ne u t with rfl | hne
        · simp
        · simpa [hne] using h.entered u

/-- Time passes. -/
theorem SequenceHeld.wait (h : SequenceHeld grace stage pos w) {clock : Instant}
    (hClock : w.shared.clock ≤ clock) :
    SequenceHeld grace stage pos ⟨⟨w.shared.state, clock⟩, w.trace⟩ :=
  { h with accounted := h.accounted.wait hClock }

/-- What a call returns, and where its thread then is. -/
def CoordinatorReturns (k : CoordinatorCall) (result : CoordinatorReturn) (p : SequencePosition) :
    Prop :=
  match k with
  | .registerHook _ => result = .registered ∧ p = .outside
  | .shutdown => ∃ report, result = .shutdown report ∧ ShutdownEnd report p

theorem ShutdownEnd.atRest {report : Option ShutdownReport} (h : ShutdownEnd report (.inside stage)) :
    stage.AtRest := by
  cases report with
  | none =>
      rcases h with ⟨start, hEq⟩ | ⟨r, hEq⟩
      · obtain rfl := SequencePosition.inside.inj hEq
        trivial
      · obtain rfl := SequencePosition.inside.inj hEq
        trivial
  | some report =>
      rcases h with ⟨startedAt, completedAt, hEq, -⟩ | ⟨r, completedAt, hEq, -⟩
      · cases hEq
      · obtain rfl := SequencePosition.inside.inj hEq
        trivial

theorem CoordinatorReturns.atRest {k : CoordinatorCall} {result : CoordinatorReturn}
    (h : CoordinatorReturns k result (.inside stage)) : stage.AtRest := by
  cases k with
  | registerHook hook => cases h.2
  | shutdown =>
      obtain ⟨report, -, hEnd⟩ := h
      exact hEnd.atRest

theorem SequenceHeld.leaves (h : SequenceHeld grace stage pos w)
    (hAtRest : ∀ s, pos t = .inside s → s.AtRest) :
    SequenceHeld grace stage (Function.update pos t .outside) w := by
  refine ⟨h.accounted, ?_, fun u => ?_, fun u => ?_, ?_⟩
  · rw [SequencePosition.stage?_update]
    exact h.sole.leave t
  · rcases eq_or_ne u t with rfl | hne
    · simp
    · simpa [hne] using h.entered u
  · rcases eq_or_ne u t with rfl | hne
    · simp [SequencePosition.Claims]
    · simpa [hne] using h.claims u
  · rcases h.underway with ⟨u, hPos⟩ | hRest
    · rcases eq_or_ne u t with rfl | hne
      · exact Or.inr (hAtRest stage hPos)
      · exact Or.inl ⟨u, by simpa [hne] using hPos⟩
    · exact Or.inr hRest

/-- Whoever calls the coordinator is somewhere in the protocol, and at most one thread is
inside the sequence. -/
def coordinatorTypestate (Thread : Type) [DecidableEq Thread] (grace : Duration) :
    Typestate (coordinatorMachine Thread) (coordinatorBody grace) where
  protocol := shutdownProtocol grace
  begins _ := .outside
  within _ _ := True
  returns := CoordinatorReturns
  inv pos w := ∃ stage, SequenceHeld grace stage pos w
  within_begins _ := trivial
  within_next _ _ _ _ _ _ _ := trivial
  obeys k := by
    cases k with
    | registerHook hook =>
        exact shutdown_follows_op (fun _ => .outside) (fun _ => rfl) fun _ => ⟨rfl, rfl⟩
    | shutdown => exact follows_shutdown.bind fun report q hEnd => ⟨report, rfl, hEnd⟩
  enters pos w t k h hRest := by
    have hSame : Function.update pos t SequencePosition.outside = pos :=
      Function.update_eq_self_iff.mpr hRest.symm
    rwa [hSame]
  keeps pos w t o a shared := fun ⟨_, h⟩ hPermits hExec => h.keeps hPermits hExec
  leaves pos w t k r := fun ⟨stage, h⟩ hReturns => ⟨stage, h.leaves fun s hPos => by
    rw [hPos] at hReturns
    exact hReturns.atRest⟩

theorem sequenceHeld_fresh (grace : Duration) (clock : Instant) :
    SequenceHeld grace .unclaimed (fun _ : Thread => .outside) ⟨⟨.new, clock⟩, []⟩ :=
  ⟨accounted_start grace clock, Sole.of_none fun _ => rfl, fun _ => by simp, fun _ => trivial,
    Or.inr trivial⟩

theorem sequenceHeld_of_reachable {clock : Instant} {c : CoordinatorConfig Thread}
    (reach : Reachable (CoordinatorStep Thread grace) (.fresh Thread clock) c) :
    ∃ pos, (coordinatorTypestate Thread grace).Typed pos c ∧
      ∃ stage, SequenceHeld grace stage pos c.world := by
  obtain ⟨pos, hTyped⟩ := Typestate.typed_of_reachable (T := coordinatorTypestate Thread grace)
    (Typestate.typed_start ⟨_, sequenceHeld_fresh grace clock⟩) reach
  exact ⟨pos, hTyped, hTyped.1⟩

end Typed

section Accounting

variable {Thread : Type} {grace : Duration} {stage : SequenceStage} {w : CoordinatorWorld Thread}

/-- What the history of a coordinator says about its hooks, at any time. -/
structure HookAccounting (grace : Duration) (trace : List (Thread × CoordinatorRecord)) : Prop where
  performed_once : (pick CoordinatorRecord.claim? trace).count false ≤ 1
  announced_once : (pick CoordinatorRecord.announced? trace).length ≤ 1
  closed_once : (pick CoordinatorRecord.closed? trace).length ≤ 1
  announced_first : ∀ past t d drained aborted now later,
    trace = past ++ (t, .emitted (.shutdownCompleted d drained aborted now)) :: later →
    pick CoordinatorRecord.announced? past = [()]
  taken_once : (pick CoordinatorRecord.taken? trace).length ≤ 1
  takes_registered : ∀ past t hooks later, trace = past ++ (t, .hooksTaken hooks) :: later →
    hooks = pick CoordinatorRecord.registered? past
  run_in_order :
    (pick CoordinatorRecord.hookStart? trace).Sublist (pick CoordinatorRecord.taken? trace).flatten
  in_time : ∀ past t hook startedAt later, trace = past ++ (t, .hookStarted hook startedAt) :: later →
    ∃ start now, (pick CoordinatorRecord.reading? past).head? = some start ∧
      (pick CoordinatorRecord.reading? past).getLast? = some now ∧ now < start + grace.nanos
  waits : (pick CoordinatorRecord.wait? trace).sum ≤ grace.nanos

theorem ranOf_sublist (results : List (ShutdownHook × Option HookFailure)) :
    (ranOf results).Sublist (results.map Prod.fst) := by
  induction results with
  | nil => exact List.Sublist.refl _
  | cons r results ih =>
      rw [ranOf, List.filterMap_cons, List.map_cons]
      by_cases hFailure : r.2 = some .deadlineExpired
      · rw [if_pos hFailure]
        exact ih.cons _
      · rw [if_neg hFailure]
        exact ih.cons_cons _

theorem HookRun.ran_sublist (r : HookRun) : r.ran.Sublist r.taken :=
  (ranOf_sublist r.results).trans (List.sublist_append_left _ _)

theorem HookRun.ran_head_sublist (r : HookRun) :
    (r.ran ++ r.pending.head?.toList).Sublist r.taken := by
  apply (ranOf_sublist r.results).append
  cases r.pending with
  | nil => exact List.Sublist.refl _
  | cons hook rest => exact List.singleton_sublist.mpr List.mem_cons_self

theorem SequenceStage.started_sublist (stage : SequenceStage) :
    stage.hooksStarted.Sublist stage.takes.flatten := by
  cases stage with
  | looping r | ready r => simpa [takes, hooksStarted] using r.ran_sublist
  | waiting r | panicked r => simpa [takes, hooksStarted] using r.ran_head_sublist
  | closing r | reported r => simpa [takes, hooksStarted, HookRun.ran] using ranOf_sublist r.results
  | _ => exact List.nil_sublist _

theorem SequenceStage.Timed.waited_le {clock : Instant} {readings : List Instant} {waited : Nat}
    (h : stage.Timed grace clock readings waited) : waited ≤ grace.nanos := by
  have hSpan : ∀ start now deadline : Nat, deadline = start + grace.nanos → start ≤ now →
      now < deadline → waited ≤ now - start → waited ≤ grace.nanos := by omega
  cases stage with
  | unclaimed | claimed => exact Nat.le_trans (Nat.le_of_eq h.2) (Nat.zero_le _)
  | overflowed => exact Nat.le_trans (Nat.le_of_eq h.2.2) (Nat.zero_le _)
  | timed r | announced r | signalled r => exact Nat.le_trans (Nat.le_of_eq h.2.1) (Nat.zero_le _)
  | looping r => exact h.2.2
  | ready r now =>
      obtain ⟨hDated, -, hStart, -, hTime, hWaited⟩ := h
      exact hSpan _ _ _ hDated.deadline_eq hStart hTime hWaited
  | waiting r now hookStartedAt =>
      obtain ⟨hDated, hStart, -, -, hTime, hWaited⟩ := h
      exact hSpan _ _ _ hDated.deadline_eq hStart hTime hWaited
  | panicked r | closing r | reported r => exact h.2

theorem Accounted.accounting (h : Accounted grace stage w) : HookAccounting grace w.trace where
  performed_once := by
    rw [h.claims]
    cases stage <;> simp [SequenceStage.claims]
  announced_once := by
    rw [h.announced]
    cases stage <;> simp [SequenceStage.announcements]
  closed_once := by
    rw [h.closed]
    cases stage <;> simp [SequenceStage.completions]
  announced_first past t d drained aborted now later hSplit := h.lawful past _ later hSplit
  taken_once := by
    rw [h.takes]
    cases stage <;> simp [SequenceStage.takes]
  takes_registered past t hooks later hSplit := h.lawful past _ later hSplit
  run_in_order := by
    rw [h.takes, h.started]
    exact stage.started_sublist
  in_time past t hook startedAt later hSplit := h.lawful past _ later hSplit
  waits := h.timing.waited_le

/-- The report of a call that came too late for the sequence. -/
def ShutdownReport.IsEmpty (r : ShutdownReport) : Prop :=
  r = .partialReport r.startedAt r.completedAt [] []

/-- The report of the sequence lists each hook it took once, in order, as succeeded or as
failed, and all but those past the deadline were run and ended as it says. -/
def ShutdownReport.Performed (r : ShutdownReport) (trace : List (Thread × CoordinatorRecord)) :
    Prop :=
  ∃ results, pick CoordinatorRecord.taken? trace = [results.map Prod.fst] ∧
    pick CoordinatorRecord.hookStart? trace = ranOf results ∧
    pick CoordinatorRecord.ended? trace = outcomesOf results ∧
    r.hooksSucceeded = succeededOf results ∧ r.hooksFailed = failedOf results

/-- The deadline counts from the coordinator's first reading of the clock. -/
def DeadlineRepresentable (grace : Duration) (trace : List (Thread × CoordinatorRecord)) : Prop :=
  ∀ start, (pick CoordinatorRecord.reading? trace).head? = some start →
    (start.checkedAdd grace).isSome

def NoHookPanicked (trace : List (Thread × CoordinatorRecord)) : Prop :=
  ∀ t hook startedAt instant, (t, .hookFinished hook startedAt ⟨.panicked, instant⟩) ∉ trace

/-- The sequence was performed, from its first event to its last. -/
structure SequencePerformed (trace : List (Thread × CoordinatorRecord)) : Prop where
  claimed : (pick CoordinatorRecord.claim? trace).count false = 1
  announced : pick CoordinatorRecord.announced? trace = [()]
  closed : pick CoordinatorRecord.closed? trace = [()]

theorem Accounted.performed {r : HookRun} {completedAt : Instant}
    (h : Accounted grace (.reported r completedAt) w) :
    SequencePerformed w.trace ∧ (r.report completedAt).Performed w.trace := by
  obtain ⟨_, hAnnounced⟩ := List.length_eq_one_iff.mp h.announced
  obtain ⟨_, hClosed⟩ := List.length_eq_one_iff.mp h.closed
  exact ⟨⟨h.claims, hAnnounced, hClosed⟩, r.results, h.takes, h.started, h.outcomes, rfl, rfl⟩

/-- Before the sequence is claimed nobody has asked for it: a late call needs an earlier one. -/
theorem Accounted.unclaimed (h : Accounted grace .unclaimed w) :
    pick CoordinatorRecord.claim? w.trace = [] := by
  have hNone : false ∉ pick CoordinatorRecord.claim? w.trace := List.count_eq_zero.mp h.claims
  apply List.eq_nil_iff_forall_not_mem.mpr
  intro wasDone hMem
  cases wasDone with
  | false => exact hNone hMem
  | true =>
      obtain ⟨⟨t, record⟩, hRecord, hClaim⟩ := List.mem_filterMap.mp hMem
      cases record with
      | completed wasDone =>
          obtain rfl := Option.some.inj hClaim
          obtain ⟨past, later, hSplit⟩ := List.append_of_mem hRecord
          have hEarlier : false ∈ pick CoordinatorRecord.claim? past :=
            h.lawful past _ later hSplit
          rw [hSplit, pick, List.filterMap_append] at hNone
          exact hNone (List.mem_append_left _ hEarlier)
      | _ => cases hClaim

theorem Accounted.not_overflowed {start : Instant} (h : Accounted grace (.overflowed start) w)
    (hStart : DeadlineRepresentable grace w.trace) : False := by
  obtain ⟨hReadings, hOverflow, -⟩ := h.timing
  have hSome := hStart start (by rw [hReadings]; rfl)
  rw [hOverflow] at hSome
  cases hSome

theorem noHookPanicked_iff {trace : List (Thread × CoordinatorRecord)} :
    NoHookPanicked trace ↔ pick CoordinatorRecord.panic? trace = [] := by
  constructor
  · intro hNone
    refine List.filterMap_eq_nil_iff.mpr fun ⟨t, record⟩ hMem => ?_
    cases record with
    | hookFinished hook startedAt ended =>
        obtain ⟨outcome, instant⟩ := ended
        cases outcome with
        | panicked => exact absurd hMem (hNone t hook startedAt instant)
        | _ => rfl
    | _ => rfl
  · intro hNone t hook startedAt instant hMem
    cases List.filterMap_eq_nil_iff.mp hNone _ hMem

theorem Accounted.not_panicked {r : HookRun} (h : Accounted grace (.panicked r) w)
    (hNoPanic : NoHookPanicked w.trace) : False := by
  have hOne := h.panics
  rw [noHookPanicked_iff.mp hNoPanic] at hOne
  cases hOne

/-- A sequence that was performed had a deadline, and no hook panicked in it. -/
theorem Accounted.unhindered {r : HookRun} {completedAt : Instant}
    (h : Accounted grace (.reported r completedAt) w) :
    DeadlineRepresentable grace w.trace ∧ NoHookPanicked w.trace := by
  obtain ⟨⟨hDeadline, hFirst, -⟩, -⟩ := h.timing
  refine ⟨fun start hStart => ?_, noHookPanicked_iff.mpr (List.eq_nil_of_length_eq_zero h.panics)⟩
  obtain rfl := Option.some.inj (hFirst.symm.trans hStart)
  exact Option.isSome_of_eq_some hDeadline

end Accounting

section System

variable {Thread : Type} [DecidableEq Thread] {grace : Duration} {clock : Instant}
  {c : CoordinatorConfig Thread}

/-- Whatever calls interleave, if the deadline is representable and no hook panics: one
call performs the sequence and reports every hook it took, the others return an empty
report, and once nobody is calling the sequence is over. -/
theorem hook_accounting (reach : Reachable (CoordinatorStep Thread grace) (.fresh Thread clock) c)
    (hStart : DeadlineRepresentable grace c.world.trace)
    (hNoPanic : NoHookPanicked c.world.trace) :
    HookAccounting grace c.world.trace ∧
      (∀ t result, c.threads t = .running .shutdown (.done result) →
        ∃ report, result = .shutdown (some report) ∧
          ((lastClaim t c.world.trace = some true ∧ report.IsEmpty) ∨
            (lastClaim t c.world.trace = some false ∧ SequencePerformed c.world.trace ∧
              report.Performed c.world.trace))) ∧
      (c.Quiescent → pick CoordinatorRecord.claim? c.world.trace ≠ [] →
        SequencePerformed c.world.trace) := by
  obtain ⟨pos, hTyped, stage, h⟩ := sequenceHeld_of_reachable reach
  refine ⟨h.accounted.accounting, fun t result hRun => ?_, fun hQuiet hClaimed => ?_⟩
  · obtain ⟨report, rfl, hEnd⟩ := hTyped.returned hRun
    have hClaims := h.claims t
    cases report with
    | none =>
        rcases hEnd with ⟨start, hPos⟩ | ⟨r, hPos⟩
        · obtain rfl := h.sole.at_place t _ (SequencePosition.stage?_eq_some.mpr hPos)
          exact (h.accounted.not_overflowed hStart).elim
        · obtain rfl := h.sole.at_place t _ (SequencePosition.stage?_eq_some.mpr hPos)
          exact (h.accounted.not_panicked hNoPanic).elim
    | some report =>
        refine ⟨report, rfl, ?_⟩
        rcases hEnd with ⟨startedAt, completedAt, hPos, rfl⟩ | ⟨r, completedAt, hPos, rfl⟩
        · rw [hPos] at hClaims
          exact Or.inl ⟨hClaims, rfl⟩
        · obtain rfl := h.sole.at_place t _ (SequencePosition.stage?_eq_some.mpr hPos)
          rw [hPos] at hClaims
          exact Or.inr ⟨hClaims, h.accounted.performed⟩
  · have hRest : stage.AtRest := by
      refine h.underway.resolve_left fun ⟨t, hPos⟩ => ?_
      rw [hTyped.idle (hQuiet t)] at hPos
      cases hPos
    cases stage with
    | unclaimed => exact absurd h.accounted.unclaimed hClaimed
    | overflowed start => exact (h.accounted.not_overflowed hStart).elim
    | panicked r => exact (h.accounted.not_panicked hNoPanic).elim
    | reported r completedAt => exact h.accounted.performed.1
    | _ => exact hRest.elim

/-- The answers of a coordinator whose clock moves only while a hook outlasts its time. -/
def coordinatorAnswer {Thread : Type} (ends : ShutdownHook → HookOutcome) (_ : Thread) :
    (o : CoordinatorOp) → Clocked CoordinatorInner → CoordinatorSig.Ans o
  | .now, c => c.clock
  | .stdNow, c => c.clock
  | .markCompleted, c => c.state.completed
  | .emit _, _ => ()
  | .signalToken, _ => ()
  | .takeHooks, c => c.state.hooks
  | .startHook _, c => c.clock
  | .finishHook hook startedAt remaining, c =>
    ⟨ends hook, if ends hook = .timedOut then startedAt + remaining else c.clock⟩
  | .registerHook _, _ => ()

/-- Of three hooks the first fails and the second uses up the time, so the third is passed
over; a second call comes in between and finds nothing to do. -/
theorem hook_accounting_deadline : ∃ c : CoordinatorConfig Bool,
    pick CoordinatorRecord.hookStart? c.world.trace = [⟨"flush"⟩, ⟨"drain"⟩] ∧
    HookAccounting (.fromSecs 5) c.world.trace ∧ SequencePerformed c.world.trace := by
  let ends (hook : ShutdownHook) : HookOutcome :=
    if hook.name = "flush" then .err ⟨"flush", "disk full"⟩ else .timedOut
  let moves : List (Move Bool CoordinatorCall) :=
    (["flush", "drain", "close"].flatMap fun name =>
      [.call false (.registerHook ⟨name⟩), .go false, .ret false]) ++
    [.call false .shutdown, .go false, .go false, .call true .shutdown, .go true, .go true, .go true,
      .ret true] ++ List.replicate 13 (.go false) ++ [.ret false]
  have hPlays : (schedule (coordinatorMachine Bool) (coordinatorBody (.fromSecs 5))
      (coordinatorAnswer ends) (CoordinatorConfig.fresh Bool 0) moves).any (fun c =>
        (c.threads false).isIdle && (c.threads true).isIdle &&
        pick CoordinatorRecord.hookStart? c.world.trace = [⟨"flush"⟩, ⟨"drain"⟩] &&
        pick CoordinatorRecord.claim? c.world.trace ≠ [] &&
        (pick CoordinatorRecord.reading? c.world.trace).head? = some 0 &&
        pick CoordinatorRecord.panic? c.world.trace = []) = true := by
    decide +kernel
  simp only [Option.any_eq_true, Bool.and_eq_true, decide_eq_true_eq, Status.isIdle_iff] at hPlays
  obtain ⟨c, hRun, ⟨⟨⟨⟨hFalse, hTrue⟩, hStarted⟩, hClaimed⟩, hReadings⟩, hEnds⟩ := hPlays
  have hQuiet : c.Quiescent := fun t => by
    cases t with
    | false => exact hFalse
    | true => exact hTrue
  have hAccounting := hook_accounting (schedule_reachable hRun)
    (fun start hStart => by
      obtain rfl := Option.some.inj (hReadings.symm.trans hStart)
      decide +kernel)
    (noHookPanicked_iff.mpr hEnds)
  exact ⟨c, hStarted, hAccounting.1, hAccounting.2.2 hQuiet hClaimed⟩

end System

end ServiceKernel
