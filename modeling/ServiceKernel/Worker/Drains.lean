import ServiceKernel.Worker.ShutdownAll

/-! The two implementations that drain a join set: each accounts for every task, and
they agree as long as no task panics after the grace period. -/
namespace ServiceKernel

open Execution Supervisor

/-- `drain` returns with its set empty and every task counted once. -/
def DrainAccounts : Prop :=
  ∀ (V : Type) (set : List (JoinEnd V)) (grace : Duration) (started ended : Instant) (expiry : Nat),
    (started.checkedAdd grace).isSome → ∃ outcome,
      drain set grace started ended expiry = some ([], outcome) ∧ outcome.total = set.length

/-- `shutdown_all`, begun with the join set of `s₀`, has come to `s`: it can return, and
if it has returned then every task was counted once. -/
structure ShutdownAccounts (T : TaskIds) (s₀ s : Supervisor) : Prop where
  returns : ∃ finish drained aborted, Reachable (SupervisorStep T) s finish ∧
    finish.phase = .returned drained aborted
  counted : ∀ drained aborted, s.phase = .returned drained aborted →
    s.joinSet = [] ∧ drained + aborted = s₀.joinSet.length
  stopped : ∀ drained aborted, s.phase = .returned drained aborted →
    ∀ id ∈ s.ids, (s.worker id).handle.state = .stopped

/-- The steps in which `run` sees that its token was cancelled: in its loop, or in the
wait before a restart. -/
def SupervisorLabel.ObservesCancel : SupervisorLabel → Prop
  | .cancelObserved _ => True
  | .backoffCancelled => True
  | _ => False

/-- What draining the join set of a supervisor comes to. -/
structure DrainingAccounts (T : TaskIds) (roster : Roster) : Prop where
  drain : DrainAccounts
  /-- Whatever tasks are in the set, and whatever they have ended with. -/
  shutdown : ∀ s now s₁ s', Distinct s.joinSet → SupervisorStep T s (.cancelObserved now) s₁ →
    Reachable (SupervisorStep T) s₁ s' → ShutdownAccounts T s s'
  spawnsNothing : ∀ s label s₁ s', Reachable (SupervisorStep T) (.new roster) s →
    label.ObservesCancel → SupervisorStep T s label s₁ → Reachable (SupervisorStep T) s₁ s' →
    s'.contexts = s.contexts
  cleared : ∀ s drained aborted, Reachable (SupervisorStep T) (.new roster) s →
    s.phase = .returned drained aborted →
    s.taskToWorker = ∅ ∧ ∀ id ∈ s.ids, (s.worker id).handle.state = .stopped

section Accounts

variable {T : TaskIds} {roster : Roster} {s s₁ s' : Supervisor} {g : Joins} {now : Instant}

theorem drain_accounts : DrainAccounts := by
  intro V set grace started ended expiry hSome
  obtain ⟨deadline, hDeadline⟩ := Option.isSome_iff_exists.mp hSome
  refine ⟨_, drain_eq hDeadline set ended expiry, ?_⟩
  have hPanics : set.countP JoinEnd.isPanicked = (set.take expiry).countP JoinEnd.isPanicked +
      (set.drop expiry).countP JoinEnd.isPanicked := by
    rw [← List.countP_append, List.take_append_drop]
  have hEnds := countP_ends set
  simp only [DrainOutcome.total]
  omega

/-- Every state of a shutdown keeps the account of what was joined. -/
theorem closing_of_runs {labels : List SupervisorLabel} (hDistinct : Distinct s.joinSet)
    (run : Runs (ShutdownStep T) (s, .none) (.cancelObserved now :: labels) (s', g)) :
    Closing s s' g := by
  obtain ⟨⟨middle, before⟩, hFirst, hRest⟩ := Runs.cons_iff.mp run
  obtain rfl : before = .none := hFirst.2
  exact hRest.reachable.ghost_invariant (fun _ => True) (Closing s) (fun _ _ => trivial)
    (.begins hDistinct hFirst.1) fun _ _ _ _ _ h hStep => h.step hStep

theorem closing_of_reachable (hDistinct : Distinct s.joinSet)
    (hStep : SupervisorStep T s (.cancelObserved now) s₁)
    (reach : Reachable (SupervisorStep T) s₁ s') : ∃ g, Closing s s' g := by
  obtain ⟨labels, run⟩ := reach
  obtain ⟨g, hRun⟩ := (Runs.cons hStep run).ghosted Joins.update .none
  exact ⟨g, closing_of_runs hDistinct hRun⟩

/-- The shutdown can always return. -/
theorem Supervisor.Closing.canReturn (h : Closing s s' g) :
    ∃ finish drained aborted, Reachable (SupervisorStep T) s' finish ∧
      finish.phase = .returned drained aborted := by
  have hCounted := h.counted
  cases hPhase : s'.phase with
  | draining drained aborted deadline =>
      have hFront : s'.joinSet = [] ++ s'.joinSet := rfl
      have hNone : ([] : List Task).map Task.result = ([] : List JoinResult).map some := rfl
      obtain ⟨labels, finish, d, a, hRuns, hEnd⟩ :=
        return_draining (T := T) (g := g) hFront h.distinct hNone hPhase
      exact ⟨finish, d, a, ⟨labels, hRuns.forget⟩, hEnd⟩
  | aborting drained aborted =>
      obtain ⟨labels, finish, d, a, hRuns, hEnd⟩ :=
        return_aborting (T := T) (g := g) h.distinct hPhase
      exact ⟨finish, d, a, ⟨labels, hRuns.forget⟩, hEnd⟩
  | returned drained aborted => exact ⟨s', drained, aborted, .refl s', hPhase⟩
  | _ => simp [Counted, hPhase] at hCounted

theorem Supervisor.Closing.accounts (h : Closing s s' g) : ShutdownAccounts T s s' where
  returns := h.canReturn
  counted drained aborted hPhase := by
    have hCounted := h.counted
    rw [Counted, hPhase] at hCounted
    obtain ⟨hEmpty, hTally, -⟩ := hCounted
    have hTotal := h.total
    rw [hEmpty, ← tally_total, ← hTally] at hTotal
    exact ⟨hEmpty, hTotal⟩
  stopped drained aborted hPhase := by
    have hCounted := h.counted
    rw [Counted, hPhase] at hCounted
    exact hCounted.2.2

theorem leaving_of_observes {label : SupervisorLabel} (hObserves : label.ObservesCancel)
    (hStep : SupervisorStep T s label s₁) : s₁.Leaving ∧ s₁.contexts = s.contexts := by
  cases takes_of_step hStep with
  | cancelObserved =>
      obtain ⟨-, hTasks⟩ := closing_spec (s := s) (f := stopWorker)
        fun st key => ⟨by simp [stopWorker], by simp [stopWorker]⟩
      exact ⟨trivial, congrArg TaskTable.contexts hTasks⟩
  | backoffCancelled hPhase hCancelled => exact ⟨hCancelled, rfl⟩
  | _ => cases hObserves

/-- Handling an outcome does not take the supervisor out of its loop. -/
theorem supervising_joined (h : Supervisor.Books s) (hPhase : s.phase = .head) {task : Task}
    (hMem : task ∈ s.joinSet) {result : JoinResult} (hResult : task.result = some result)
    (wall : Option Nat) (now : Instant) :
    ({ s with clock := now }.joined T task result wall).Supervising := by
  obtain ⟨outcome, hOutcome⟩ :=
    (h.balanced (.of_phase hPhase (Or.inl rfl))).1.outcome hMem hResult
  obtain ⟨-, mid, circuitOpen, hMid, -, -, -, hAfter⟩ :=
    joined_spec (T := T) h.consistent hMem hResult hOutcome wall now
  cases hAfter with
  | retired hSame => exact .of_phase (hSame.trans (hMid.trans hPhase)) (Or.inl rfl)
  | waiting _ hWait => exact .of_phase hWait (Or.inr (Or.inr ⟨_, _, _, _, rfl⟩))
  | restarted _ hHead => exact .of_phase hHead (Or.inl rfl)

/-- A supervisor has not started, is in its loop, or keeps the account of a shutdown. -/
def Staged (s : Supervisor) : Prop :=
  s.phase = .notStarted ∨ s.Supervising ∨ ∃ s₀ g, Closing s₀ s g

theorem staged_step {label : SupervisorLabel} (hBooks : Supervisor.Books s) (h : Staged s)
    (hStep : SupervisorStep T s label s') : Staged s' := by
  rcases h with hNew | hLoop | ⟨s₀, g, hClosing⟩
  · cases takes_of_step hStep with
    | start => exact Or.inr (Or.inl trivial)
    | heartbeat | cancel | cancelWorker | finish => exact Or.inl hNew
    | tick hPhase => rcases hPhase with ⟨hPhase, -⟩ | hPhase <;> simp [hPhase] at hNew
    | cancelObserved hPhase => rcases hPhase with hPhase | hPhase <;> simp [hPhase] at hNew
    | drained hPhase => rcases hPhase with hPhase | ⟨_, hPhase⟩ <;> simp [hPhase] at hNew
    | join hPhase | joinNone hPhase | backoffElapsed hPhase | backoffCancelled hPhase
    | drain hPhase | drainAborting hPhase | graceExpired hPhase | abort hPhase =>
        simp [hPhase] at hNew
  · cases takes_of_step hStep with
    | start => exact Or.inr (Or.inl trivial)
    | tick => exact Or.inr (Or.inl trivial)
    | join hPhase _ _ hTask hResult =>
        exact Or.inr (Or.inl (supervising_joined hBooks hPhase (findTask_mem hTask).1 hResult _ _))
    | joinNone => exact Or.inr (Or.inl trivial)
    | backoffElapsed => exact Or.inr (Or.inl trivial)
    | backoffCancelled => exact Or.inr (Or.inl trivial)
    | cancelObserved =>
        exact Or.inr (Or.inr ⟨s, .none,
          .begins ⟨hBooks.consistent.distinct, hBooks.consistent.numbered⟩ hStep⟩)
    | heartbeat | cancel | cancelWorker | finish => exact Or.inr (Or.inl hLoop)
    | drained hPhase =>
        rcases hPhase with hPhase | ⟨_, hPhase⟩ <;> simp [Supervising, hPhase] at hLoop
    | drain hPhase | drainAborting hPhase | graceExpired hPhase | abort hPhase =>
        simp [Supervising, hPhase] at hLoop
  · exact Or.inr (Or.inr ⟨s₀, _, hClosing.step hStep⟩)

/-- A supervisor that has returned knows of no task, and its workers read stopped. -/
theorem cleared_of_reachable {drained aborted : Nat}
    (reach : Reachable (SupervisorStep T) (.new roster) s)
    (hPhase : s.phase = .returned drained aborted) :
    s.taskToWorker = ∅ ∧ ∀ id ∈ s.ids, (s.worker id).handle.state = .stopped := by
  have hBooks := books_of_reachable reach
  have hStaged : Supervisor.Books s ∧ Staged s :=
    reach.invariant (fun s => Supervisor.Books s ∧ Staged s) ⟨books_new roster, Or.inl rfl⟩
      fun _ _ _ h hStep => ⟨books_step h.1 hStep, staged_step h.1 h.2 hStep⟩
  rcases hStaged.2 with hNew | hLoop | ⟨s₀, g, hClosing⟩
  · simp [hPhase] at hNew
  · simp [Supervising, hPhase] at hLoop
  · have hCounted := hClosing.counted
    rw [Counted, hPhase] at hCounted
    refine ⟨?_, hCounted.2.2⟩
    -- The map names unjoined tasks only, and there are none.
    have hNone : ∀ taskId, s.taskToWorker.lookup taskId = none := by
      intro taskId
      cases hLookup : s.taskToWorker.lookup taskId with
      | none => rfl
      | some worker =>
          obtain ⟨task, hMem, -⟩ := (hBooks.consistent.mapped taskId worker).mp hLookup
          have hEmpty : s.tasks.joinSet = [] := hCounted.1
          rw [hEmpty] at hMem
          cases hMem
    apply AList.ext
    have hKeys : s.taskToWorker.keys = [] := by
      rw [List.eq_nil_iff_forall_not_mem]
      intro taskId hMem
      obtain ⟨worker, hSome⟩ := Option.isSome_iff_exists.mp (AList.lookup_isSome.mpr hMem)
      rw [hNone] at hSome
      cases hSome
    exact List.map_eq_nil_iff.mp hKeys

/-- Draining accounts for every task, in `drain` and in `shutdown_all`. -/
theorem draining_accounts (T : TaskIds) (roster : Roster) : DrainingAccounts T roster where
  drain := drain_accounts
  shutdown s now s₁ s' hDistinct hStep hReach := by
    obtain ⟨g, hClosing⟩ := closing_of_reachable hDistinct hStep hReach
    exact hClosing.accounts
  spawnsNothing s label s₁ s' hFrom hObserves hStep hReach := by
    obtain ⟨hLeaving, hSame⟩ := leaving_of_observes hObserves hStep
    have hKept : s'.Leaving ∧ s'.contexts = s₁.contexts :=
      hReach.invariant (fun s => s.Leaving ∧ s.contexts = s₁.contexts) ⟨hLeaving, rfl⟩
        fun _ _ _ h hNext => ⟨(h.1.step hNext).1, (h.1.step hNext).2.trans h.2⟩
    exact hKept.2.trans hSame
  cleared s drained aborted hReach hPhase := cleared_of_reachable hReach hPhase

end Accounts

section Agreement

variable {results : List JoinResult} {expiry : Nat}

/-- `drain` and `shutdown_all` of tasks that end like this, when the grace period expires
after `expiry` joins, return the same counts and count only cancellations as aborted. -/
def DrainsAgree (results : List JoinResult) (expiry : Nat) : Prop :=
  ∀ (T : TaskIds) (s s' : Supervisor) (now : Instant) (labels : List SupervisorLabel)
    (drained aborted : Nat), Distinct s.joinSet →
    Runs (ShutdownStep T) (s, .none) (.cancelObserved now :: labels)
      (s', ⟨results.take expiry, results.drop expiry⟩) →
    s'.phase = .returned drained aborted →
    ∀ (V : Type) (set : List (JoinEnd V)) (grace : Duration) (started ended : Instant),
    set.map JoinEnd.kind = (results.map JoinResult.toEnd).map JoinEnd.kind →
    (started.checkedAdd grace).isSome → ∃ outcome,
      drain set grace started ended expiry = some ([], outcome) ∧
      outcome.drained = drained ∧ outcome.aborted = aborted ∧
      aborted = set.countP JoinEnd.isCancelled

/-- A supervisor whose only worker has these tasks, when it sees its token cancelled. -/
def Supervisor.holding (results : List JoinResult) : Supervisor :=
  { Supervisor.new (.single .watched .async) with
    joinSet := results.zipIdx.map fun entry => ⟨entry.2, 1, entry.2, some entry.1⟩
    cancelled := true
    phase := .head }

theorem holding_distinct (results : List JoinResult) :
    Distinct (Supervisor.holding results).joinSet := by
  have hIndices : results.zipIdx.map Prod.snd = List.range results.length := by
    simp [List.zipIdx_map_snd, List.range_eq_range']
  constructor
  · simp only [Supervisor.holding, List.map_map, Function.comp_def]
    rw [hIndices]
    exact List.nodup_range
  · simp only [Supervisor.holding, List.map_map, Function.comp_def]
    rw [hIndices]
    exact List.nodup_range

theorem holding_results (results : List JoinResult) :
    (Supervisor.holding results).joinSet.map Task.result = results.map some := by
  have hValues : results.zipIdx.map Prod.fst = results := by simp [List.zipIdx_map_fst]
  conv_rhs => rw [← hValues]
  simp only [Supervisor.holding, List.map_map, Function.comp_def]

/-- Every sequence of results is joined by some shutdown, whose grace period expires at
any point in it. -/
theorem holding_run (T : TaskIds) (results : List JoinResult) (expiry : Nat) :
    ∃ labels s' drained aborted, Runs (ShutdownStep T) (.holding results, .none)
        (.cancelObserved 0 :: labels) (s', ⟨results.take expiry, results.drop expiry⟩) ∧
      s'.phase = .returned drained aborted := by
  let s := Supervisor.holding results
  let s₁ : Supervisor := { s.ids.foldl stopWorker s with
    phase := .draining 0 0 (0 + shutdownGrace.nanos), clock := 0 }
  have hFirst : ShutdownStep T (s, .none) (.cancelObserved 0) (s₁, .none) := by
    refine ⟨?_, rfl⟩
    simp [SupervisorStep, exec, s, s₁, Supervisor.holding, atLoop, Supervisor.new]
  obtain ⟨-, hTasks⟩ := closing_spec (s := s) (f := stopWorker)
    fun st key => ⟨by simp [stopWorker], by simp [stopWorker]⟩
  have hSet : s₁.joinSet = s.joinSet := congrArg TaskTable.joinSet hTasks
  have hParts : s₁.joinSet = s.joinSet.take expiry ++ s.joinSet.drop expiry := by
    rw [hSet, List.take_append_drop]
  have hEnded : (s.joinSet.take expiry).map Task.result = (results.take expiry).map some := by
    rw [List.map_take, List.map_take, holding_results]
  have hLeft : (s.joinSet.drop expiry).map (fun t => t.result.getD .cancelled) =
      results.drop expiry := by
    have hGet : s.joinSet.map (fun t => t.result.getD .cancelled) = results := by
      have hResults := congrArg (List.map fun r => Option.getD r .cancelled) (holding_results results)
      simpa [List.map_map, Function.comp_def] using hResults
    rw [List.map_drop, hGet]
  obtain ⟨labels, s', drained, aborted, hRuns, hEnd⟩ := return_draining (T := T) (g := .none)
    hParts (hSet ▸ holding_distinct results) hEnded rfl
  rw [hLeft] at hRuns
  exact ⟨labels, s', drained, aborted, Runs.cons hFirst hRuns, hEnd⟩

/-- The panics that come after the deadline are what `drain` counts otherwise. -/
theorem no_panic_of_agree (h : DrainsAgree results expiry) :
    ((results.map JoinResult.toEnd).drop expiry).countP JoinEnd.isPanicked = 0 := by
  obtain ⟨labels, s', drained, aborted, hRuns, hEnd⟩ := holding_run .counting results expiry
  have hDeadline : Instant.checkedAdd 0 .zero = some 0 := by decide
  obtain ⟨outcome, hDrain, -, hAborted, hCancelled⟩ := h .counting _ s' 0 labels drained aborted
    (holding_distinct results) hRuns hEnd _ (results.map JoinResult.toEnd) .zero 0 0 rfl (by decide)
  rw [drain_eq hDeadline] at hDrain
  obtain ⟨-, rfl⟩ := Prod.mk.inj (Option.some.inj hDrain)
  simp only at hAborted
  omega

/-- The two drains agree if and only if no task panics after the grace period. -/
theorem drains_agree_iff (results : List JoinResult) (expiry : Nat) :
    DrainsAgree results expiry ↔
      ∀ result ∈ results.drop expiry, ∀ reason, result ≠ .panicked reason := by
  have hNone : ((results.map JoinResult.toEnd).drop expiry).countP JoinEnd.isPanicked = 0 ↔
      ∀ result ∈ results.drop expiry, ∀ reason, result ≠ .panicked reason := by
    rw [← List.map_drop, List.countP_map, List.countP_eq_zero]
    constructor
    · rintro h result hMem reason rfl
      exact h _ hMem rfl
    · intro h result hMem
      cases result with
      | panicked reason => exact absurd rfl (h _ hMem reason)
      | _ => simp [JoinResult.toEnd, JoinEnd.isPanicked]
  rw [← hNone]
  constructor
  · exact no_panic_of_agree
  · intro hPanics T s s' now labels drained aborted hDistinct hRuns hPhase V set grace started ended
      hKinds hSome
    obtain ⟨deadline, hDeadline⟩ := Option.isSome_iff_exists.mp hSome
    have hCounted := (closing_of_runs hDistinct hRuns).counted
    rw [Counted, hPhase] at hCounted
    have hAll : (Joins.mk (results.take expiry) (results.drop expiry)).all = results :=
      List.take_append_drop _ _
    have hTally := hCounted.2.1
    rw [hAll, tally_eq, Prod.mk.injEq] at hTally
    obtain ⟨hDrained, hAborted⟩ := hTally
    obtain ⟨hOk, hPanicked, hCancelled⟩ := JoinEnd.countP_kinds hKinds
    have hLate : (set.drop expiry).countP JoinEnd.isPanicked = 0 := by
      have hDropped : (set.drop expiry).map JoinEnd.kind =
          ((results.map JoinResult.toEnd).drop expiry).map JoinEnd.kind := by
        rw [List.map_drop, hKinds, List.map_drop]
      rw [(JoinEnd.countP_kinds hDropped).2.1]
      exact hPanics
    have hEarly : set.countP JoinEnd.isPanicked = (set.take expiry).countP JoinEnd.isPanicked := by
      conv_lhs => rw [← List.take_append_drop expiry set, List.countP_append, hLate, Nat.add_zero]
    refine ⟨_, drain_eq hDeadline set ended expiry, ?_, ?_, ?_⟩
    · simp only
      omega
    · simp only
      omega
    · omega

/-- A task that panics after the deadline is aborted to one and drained to the other. -/
theorem drains_disagree : ¬ ∀ results expiry, DrainsAgree results expiry := by
  intro hClaim
  have h := no_panic_of_agree (hClaim [.panicked .unknown] 0)
  revert h
  decide

end Agreement

end ServiceKernel
