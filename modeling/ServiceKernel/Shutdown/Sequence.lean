import ServiceKernel.Semantics.Typestate
import ServiceKernel.Shutdown.Coordinator

/-! The stages of the one shutdown sequence, with all that it has recorded so far, as a
protocol that `shutdown` follows. -/
namespace ServiceKernel

open Interleaving

/-- How far the loop over the hooks has come. `start` is the reading that the deadline
counts from; a hook without a failure has returned `Ok`. -/
structure HookRun where
  startedAt : Instant
  start : Instant
  deadline : Instant
  pending : List ShutdownHook
  results : List (ShutdownHook × Option HookFailure)
  deriving DecidableEq

/-- What a hook that has ended is listed with; `none` when it panicked. -/
def HookOutcome.result (remaining : Nat) : HookOutcome → Option (Option HookFailure)
  | ok => some none
  | err error => some (some (.failed error))
  | timedOut => some (some (.timedOut remaining))
  | panicked => none

def succeededOf (results : List (ShutdownHook × Option HookFailure)) : List String :=
  results.filterMap fun r => match r.2 with
    | none => some r.1.name
    | some _ => none

@[simp] theorem succeededOf_concat (results : List (ShutdownHook × Option HookFailure))
    (hook : ShutdownHook) (result : Option HookFailure) :
    succeededOf (results ++ [(hook, result)]) =
      succeededOf results ++ if result = none then [hook.name] else [] := by
  cases result <;> simp [succeededOf]

def failedOf (results : List (ShutdownHook × Option HookFailure)) : List (String × HookFailure) :=
  results.filterMap fun r => r.2.map fun failure => (r.1.name, failure)

@[simp] theorem failedOf_concat (results : List (ShutdownHook × Option HookFailure))
    (hook : ShutdownHook) (result : Option HookFailure) :
    failedOf (results ++ [(hook, result)]) =
      failedOf results ++ (result.map fun failure => (hook.name, failure)).toList := by
  cases result <;> simp [failedOf]

/-- The hooks that were run: all but those whose turn came after the deadline. -/
def ranOf (results : List (ShutdownHook × Option HookFailure)) : List ShutdownHook :=
  results.filterMap fun r => if r.2 = some .deadlineExpired then none else some r.1

/-- How the hooks that were run have ended. -/
def outcomesOf (results : List (ShutdownHook × Option HookFailure)) :
    List (ShutdownHook × HookOutcome) :=
  results.filterMap fun r => match r.2 with
    | none => some (r.1, .ok)
    | some (.failed error) => some (r.1, .err error)
    | some (.timedOut _) => some (r.1, .timedOut)
    | some .deadlineExpired => none

namespace HookRun

variable (r : HookRun)

def taken : List ShutdownHook := r.results.map Prod.fst ++ r.pending

def ran : List ShutdownHook := ranOf r.results

/-- The first pending hook gets its result. -/
def settle (result : Option HookFailure) : HookRun :=
  match r.pending with
  | [] => r
  | hook :: rest => { r with pending := rest, results := r.results ++ [(hook, result)] }

def report (completedAt : Instant) : ShutdownReport :=
  .partialReport r.startedAt completedAt (succeededOf r.results) (failedOf r.results)

end HookRun

/-- The event that closes the sequence. -/
def ShutdownReport.completed (r : ShutdownReport) : LifecycleEvent :=
  .shutdownCompleted r.duration r.workersDrained r.workersAborted r.completedAt

inductive SequenceStage where
  | unclaimed
  | claimed (startedAt : Instant)
  | overflowed (start : Instant)
  | timed (r : HookRun)
  | announced (r : HookRun)
  | signalled (r : HookRun)
  | looping (r : HookRun)
  /-- At `now` there was time left for the first pending hook. -/
  | ready (r : HookRun) (now : Instant)
  | waiting (r : HookRun) (now hookStartedAt : Instant)
  | panicked (r : HookRun)
  | closing (r : HookRun) (completedAt : Instant)
  | reported (r : HookRun) (completedAt : Instant)
  deriving DecidableEq

/-- How an operation of the call that performs the sequence moves it on. -/
def SequenceStage.next (grace : Duration) (stage : SequenceStage) :
    (o : CoordinatorOp) → CoordinatorSig.Ans o → Option SequenceStage
  | .stdNow, now => match stage with
    | claimed startedAt => match Instant.checkedAdd now grace with
      | none => some (overflowed now)
      | some deadline => some (timed ⟨startedAt, now, deadline, [], []⟩)
    | looping r => if r.pending = [] then none
      else if r.deadline - now = 0 then some (looping (r.settle (some .deadlineExpired)))
      else some (ready r now)
    | _ => none
  | .now, now => match stage with
    | looping r => if r.pending = [] then some (closing r now) else none
    | _ => none
  | .emit event, _ => match stage with
    | timed r => if event = .shutdownStarted r.startedAt then some (announced r) else none
    | closing r completedAt =>
      if event = (r.report completedAt).completed then some (reported r completedAt) else none
    | _ => none
  | .signalToken, _ => match stage with
    | announced r => some (signalled r)
    | _ => none
  | .takeHooks, hooks => match stage with
    | signalled r => some (looping { r with pending := hooks })
    | _ => none
  | .startHook hook, hookStartedAt => match stage with
    | ready r now => if r.pending.head? = some hook then some (waiting r now hookStartedAt) else none
    | _ => none
  | .finishHook hook startedAt remaining, ended => match stage with
    | waiting r now hookStartedAt =>
      if r.pending.head? = some hook ∧ startedAt = hookStartedAt ∧ remaining = r.deadline - now then
        match ended.outcome.result remaining with
        | some result => some (looping (r.settle result))
        | none => some (panicked r)
      else none
    | _ => none
  | .markCompleted, _ => none
  | .registerHook _, _ => none

/-- A thread that came too late for the sequence reads the clock once more. -/
inductive SequencePosition where
  | outside
  | entered (startedAt : Instant)
  | late (startedAt : Instant)
  | lateRead (startedAt completedAt : Instant)
  | inside (stage : SequenceStage)
  deriving DecidableEq

def SequencePosition.next (grace : Duration) (p : SequencePosition) (o : CoordinatorOp)
    (a : CoordinatorSig.Ans o) : Option SequencePosition :=
  match p with
  | inside stage => (stage.next grace o a).map inside
  | outside => match o, a with
    | .now, now => some (entered now)
    | .registerHook _, _ => some outside
    | .signalToken, _ => some outside
    | _, _ => none
  | entered startedAt => match o, a with
    | .markCompleted, wasDone =>
      some (if wasDone then late startedAt else inside (.claimed startedAt))
    | _, _ => none
  | late startedAt => match o, a with
    | .now, now => some (lateRead startedAt now)
    | _, _ => none
  | lateRead .. => none

abbrev shutdownProtocol (grace : Duration) : Protocol CoordinatorSig where
  Position := SequencePosition
  rest := .outside
  next := SequencePosition.next grace

section Follows

variable {grace : Duration}

theorem coordinatorAns_nonempty (o : CoordinatorOp) : Nonempty (CoordinatorSig.Ans o) := by
  cases o with
  | now | stdNow | startHook => exact ⟨(0 : Nat)⟩
  | markCompleted => exact ⟨false⟩
  | takeHooks => exact ⟨([] : List ShutdownHook)⟩
  | finishHook => exact ⟨(⟨.ok, 0⟩ : HookEnd)⟩
  | emit | signalToken | registerHook => exact ⟨()⟩

/-- One operation whose next position is a function of the answer. -/
theorem shutdown_follows_op {α : Type} {exit : α → SequencePosition → Prop} {o : CoordinatorOp}
    {next : CoordinatorSig.Ans o → Program CoordinatorSig α} {p : SequencePosition}
    (after : CoordinatorSig.Ans o → SequencePosition)
    (hNext : ∀ a, SequencePosition.next grace p o a = some (after a))
    (h : ∀ a, (shutdownProtocol grace).Follows exit (next a) (after a)) :
    (shutdownProtocol grace).Follows exit (.perform o next) p := by
  obtain ⟨a⟩ := coordinatorAns_nonempty o
  refine ⟨⟨a, by simp [hNext]⟩, fun a p' hStep => ?_⟩
  obtain rfl : after a = p' := Option.some.inj ((hNext a).symm.trans hStep)
  exact h a

/-- Where the loop over the hooks stops: through the list, or at a panic. -/
def HooksEnd (startedAt : Instant) (lists : Option (List String × List (String × HookFailure)))
    (q : SequencePosition) : Prop :=
  match lists with
  | none => ∃ r, q = .inside (.panicked r)
  | some lists => ∃ r : HookRun, q = .inside (.looping r) ∧ r.pending = [] ∧
      r.startedAt = startedAt ∧ lists = (succeededOf r.results, failedOf r.results)

theorem follows_hookLoop (r : HookRun) :
    (shutdownProtocol grace).Follows (HooksEnd r.startedAt)
      (runHooks r.deadline r.pending (succeededOf r.results) (failedOf r.results))
      (.inside (.looping r)) := by
  obtain ⟨startedAt, start, deadline, pending, results⟩ := r
  induction pending generalizing results with
  | nil => exact ⟨_, rfl, rfl, rfl, rfl⟩
  | cons hook rest ih =>
      have hRest : ∀ result, (shutdownProtocol grace).Follows (HooksEnd startedAt)
          (runHooks deadline rest (succeededOf results ++ if result = none then [hook.name] else [])
            (failedOf results ++ (result.map fun failure => (hook.name, failure)).toList))
          (.inside (.looping ⟨startedAt, start, deadline, rest, results ++ [(hook, result)]⟩)) := by
        intro result
        have hLoop := ih (results ++ [(hook, result)])
        rwa [succeededOf_concat, failedOf_concat] at hLoop
      have hFailed : ∀ failure, (shutdownProtocol grace).Follows (HooksEnd startedAt)
          (runHooks deadline rest (succeededOf results) (failedOf results ++ [(hook.name, failure)]))
          (.inside (.looping ⟨startedAt, start, deadline, rest,
            results ++ [(hook, some failure)]⟩)) := by
        intro failure
        simpa using hRest (some failure)
      have hRead : ∀ now : Instant, (shutdownProtocol grace).next
          (.inside (.looping ⟨startedAt, start, deadline, hook :: rest, results⟩)) .stdNow now =
          if deadline - now = 0 then some (.inside (.looping ⟨startedAt, start, deadline, rest,
            results ++ [(hook, some .deadlineExpired)]⟩))
          else some (.inside (.ready ⟨startedAt, start, deadline, hook :: rest, results⟩ now)) := by
        intro now
        simp only [SequencePosition.next, SequenceStage.next, HookRun.settle, reduceCtorEq, if_false]
        split <;> rfl
      have hFinish : ∀ (now hookStartedAt : Instant) (ended : HookEnd), (shutdownProtocol grace).next
          (.inside (.waiting ⟨startedAt, start, deadline, hook :: rest, results⟩ now hookStartedAt))
          (.finishHook hook hookStartedAt (deadline - now)) ended =
          some (.inside (match ended.outcome.result (deadline - now) with
            | some result => .looping ⟨startedAt, start, deadline, rest, results ++ [(hook, result)]⟩
            | none => .panicked ⟨startedAt, start, deadline, hook :: rest, results⟩)) := by
        intro now hookStartedAt ended
        simp only [SequencePosition.next, SequenceStage.next, HookRun.settle, List.head?_cons,
          and_self, if_true]
        cases ended.outcome.result (deadline - now) <;> rfl
      refine ⟨⟨(0 : Nat), ?_⟩, fun (now : Instant) p' hStep => ?_⟩
      · rw [hRead]
        split <;> rfl
      rw [hRead] at hStep
      simp only [Program.bind]
      by_cases hTime : deadline - now = 0
      · rw [if_pos hTime] at hStep
        obtain rfl := Option.some.inj hStep
        rw [if_pos hTime]
        exact hFailed .deadlineExpired
      · rw [if_neg hTime] at hStep
        obtain rfl := Option.some.inj hStep
        rw [if_neg hTime]
        refine shutdown_follows_op (fun hookStartedAt : Instant => .inside (.waiting
          ⟨startedAt, start, deadline, hook :: rest, results⟩ now hookStartedAt))
          (fun _ => by simp [SequencePosition.next, SequenceStage.next]) fun hookStartedAt => ?_
        refine shutdown_follows_op _ (hFinish now hookStartedAt) fun (ended : HookEnd) => ?_
        obtain ⟨outcome, instant⟩ := ended
        cases outcome with
        | ok =>
            have hSucceeded := hRest none
            rw [if_pos rfl, Option.map_none, Option.toList_none, List.append_nil] at hSucceeded
            exact hSucceeded
        | err e => exact hFailed (.failed e)
        | timedOut => exact hFailed (.timedOut (deadline - now))
        | panicked => exact ⟨_, rfl⟩

/-- What `shutdown` returns and where: the report of the sequence, or an empty one. -/
def ShutdownEnd (report : Option ShutdownReport) (q : SequencePosition) : Prop :=
  match report with
  | some report =>
    (∃ startedAt completedAt, q = .lateRead startedAt completedAt ∧
      report = .partialReport startedAt completedAt [] []) ∨
    ∃ r completedAt, q = .inside (.reported r completedAt) ∧ report = r.report completedAt
  | none => (∃ start, q = .inside (.overflowed start)) ∨ ∃ r, q = .inside (.panicked r)

theorem follows_shutdownSteps {startedAt start deadline : Instant} :
    (shutdownProtocol grace).Follows ShutdownEnd (shutdownSequence startedAt deadline)
      (.inside (.timed ⟨startedAt, start, deadline, [], []⟩)) := by
  refine shutdown_follows_op (fun _ => .inside (.announced ⟨startedAt, start, deadline, [], []⟩))
    (fun _ => by simp [SequencePosition.next, SequenceStage.next]) fun _ => ?_
  refine shutdown_follows_op (fun _ => .inside (.signalled ⟨startedAt, start, deadline, [], []⟩))
    (fun _ => rfl) fun _ => ?_
  refine shutdown_follows_op (fun hooks : List ShutdownHook =>
    .inside (.looping ⟨startedAt, start, deadline, hooks, []⟩)) (fun _ => rfl) fun hooks => ?_
  simp only [Program.bind]
  apply (follows_hookLoop ⟨startedAt, start, deadline, hooks, []⟩).bind
  intro lists q hEnd
  cases lists with
  | none => exact Or.inr hEnd
  | some lists =>
      obtain ⟨r, rfl, hPending, hStarted, rfl⟩ := hEnd
      obtain rfl : r.startedAt = startedAt := hStarted
      refine shutdown_follows_op (fun completedAt : Instant => .inside (.closing r completedAt))
        (fun _ => by simp [SequencePosition.next, SequenceStage.next, hPending]) fun completedAt => ?_
      have hEvent : SequenceStage.next grace (.closing r completedAt)
          (.emit (r.report completedAt).completed) () = some (.reported r completedAt) := if_pos rfl
      exact shutdown_follows_op (fun _ => .inside (.reported r completedAt))
        (fun _ => congrArg (Option.map SequencePosition.inside) hEvent)
        fun _ => Or.inr ⟨r, completedAt, rfl, rfl⟩

theorem follows_shutdown :
    (shutdownProtocol grace).Follows ShutdownEnd (coordinatorShutdown grace) .outside := by
  refine shutdown_follows_op (fun startedAt : Instant => .entered startedAt) (fun _ => rfl)
    fun startedAt => ?_
  refine shutdown_follows_op (fun wasDone : Bool =>
    if wasDone then .late startedAt else .inside (.claimed startedAt)) (fun _ => rfl)
    fun wasDone => ?_
  cases wasDone with
  | true =>
      exact shutdown_follows_op (fun completedAt : Instant => .lateRead startedAt completedAt)
        (fun _ => rfl) fun completedAt => Or.inl ⟨startedAt, completedAt, rfl, rfl⟩
  | false =>
      refine shutdown_follows_op (fun start : Instant => .inside (match start.checkedAdd grace with
        | none => .overflowed start
        | some deadline => .timed ⟨startedAt, start, deadline, [], []⟩)) (fun start => ?_)
        fun start => ?_
      · simp only [SequencePosition.next, SequenceStage.next, Bool.false_eq_true, if_false]
        cases Instant.checkedAdd start grace <;> rfl
      · simp only [Program.bind]
        cases start.checkedAdd grace with
        | none => exact Or.inl ⟨start, rfl⟩
        | some deadline => exact follows_shutdownSteps

end Follows

end ServiceKernel
