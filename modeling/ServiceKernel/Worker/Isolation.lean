import ServiceKernel.Semantics.Simulation
import ServiceKernel.Worker.BackoffHold
import ServiceKernel.Worker.Facet

/-! A worker among others, and the same worker alone. The others have a part in when the
supervisor turns to a worker, and in nothing else: whatever the worker goes through and is
said of it in their company it can go through, and can be said of it, alone. -/
namespace ServiceKernel

open Execution

/-- One worker of the roster, registered alone. It keeps the id it has there, where a supervisor
that registers it alone would give it the first one; an id only names its worker. -/
def Roster.only (roster : Roster) (i : WorkerId) : Roster :=
  ⟨[i], List.nodup_singleton i, roster.spec, roster.runner⟩

namespace Supervisor

/-- The phase of the supervisor of worker `i` alone beside that of the supervisor of many.
While another worker's restart holds the others up, the supervisor of one is at the head of
its loop; and its drain cannot expire once it has no task left. -/
inductive Reflects (i : WorkerId) (flight : List (Option JoinResult)) :
    SupervisorPhase → SupervisorPhase → Prop where
  | notStarted : Reflects i flight .notStarted .notStarted
  | head : Reflects i flight .head .head
  | idle : Reflects i flight .idle .idle
  | own {name : String} {attempts : UInt32} {due : Instant} :
      Reflects i flight (.backoff i name attempts due) (.backoff i name attempts due)
  | other {id : WorkerId} {name : String} {attempts : UInt32} {due : Instant} (hNe : id ≠ i) :
      Reflects i flight (.backoff id name attempts due) .head
  | draining {drained aborted drained' aborted' : Nat} {deadline : Instant} :
      Reflects i flight (.draining drained aborted deadline) (.draining drained' aborted' deadline)
  | late {drained aborted drained' aborted' : Nat} {deadline : Instant} (hEmpty : flight = []) :
      Reflects i flight (.aborting drained aborted) (.draining drained' aborted' deadline)
  | aborting {drained aborted drained' aborted' : Nat} :
      Reflects i flight (.aborting drained aborted) (.aborting drained' aborted')
  | returned {drained aborted drained' aborted' : Nat} :
      Reflects i flight (.returned drained aborted) (.returned drained' aborted')

variable {T : TaskIds} {s s' one one' : Supervisor} {i : WorkerId} {label act : SupervisorLabel}
  {flight flight' : List (Option JoinResult)} {phase phase' : SupervisorPhase}

theorem Reflects.mono (h : Reflects i flight phase phase') (hFlight : flight = [] → flight' = []) :
    Reflects i flight' phase phase' := by
  cases h with
  | late hEmpty => exact .late (hFlight hEmpty)
  | other hNe => exact .other hNe
  | notStarted => exact .notStarted
  | head => exact .head
  | idle => exact .idle
  | own => exact .own
  | draining => exact .draining
  | aborting => exact .aborting
  | returned => exact .returned

/-- The supervisor waits out the worker's restart in both, or is at the head of its loop. -/
theorem reflects_next (r : RegisteredWorker) (hasFailed : Bool) (wall : Option Nat) (now : Instant) :
    Reflects i flight (r.nextPhase i hasFailed wall now) (r.nextPhase i hasFailed wall now) := by
  unfold RegisteredWorker.nextPhase RegisteredWorker.resumePhase
  split_ifs
  · exact .head
  · exact .own
  · exact .head

theorem reflects_next_other {id : WorkerId} (hNe : id ≠ i) (r : RegisteredWorker) (hasFailed : Bool)
    (wall : Option Nat) (now : Instant) :
    Reflects i flight (r.nextPhase id hasFailed wall now) .head := by
  unfold RegisteredWorker.nextPhase RegisteredWorker.resumePhase
  split_ifs
  · exact .head
  · exact .other hNe
  · exact .head

section Inversion

variable {id : WorkerId} {name : String} {attempts : UInt32} {drained aborted : Nat}
  {due deadline : Instant}

theorem Reflects.of_notStarted (h : Reflects i flight .notStarted phase) : phase = .notStarted := by
  cases h
  rfl

theorem Reflects.of_head (h : Reflects i flight .head phase) : phase = .head := by
  cases h
  rfl

theorem Reflects.of_idle (h : Reflects i flight .idle phase) : phase = .idle := by
  cases h
  rfl

theorem Reflects.of_backoff (h : Reflects i flight (.backoff id name attempts due) phase) :
    phase = if id = i then .backoff id name attempts due else .head := by
  cases h with
  | own => exact (if_pos rfl).symm
  | other hNe => exact (if_neg hNe).symm

theorem Reflects.of_draining (h : Reflects i flight (.draining drained aborted deadline) phase) :
    ∃ drained' aborted', phase = .draining drained' aborted' deadline := by
  cases h
  exact ⟨_, _, rfl⟩

theorem Reflects.of_aborting (h : Reflects i flight (.aborting drained aborted) phase) :
    ∃ drained' aborted', phase = .aborting drained' aborted' ∨
      flight = [] ∧ ∃ deadline, phase = .draining drained' aborted' deadline := by
  cases h with
  | late hEmpty => exact ⟨_, _, Or.inr ⟨hEmpty, _, rfl⟩⟩
  | aborting => exact ⟨_, _, Or.inl rfl⟩

end Inversion

/-- The supervisor of worker `i` alone mirrors the supervisor of many. -/
structure Mirrors (i : WorkerId) (s one : Supervisor) : Prop where
  ids : one.ids = [i]
  facet : one.facet i = s.facet i
  cancelled : one.cancelled = s.cancelled
  clock : one.clock ≤ s.clock
  handedOut : (s.phase = .notStarted ∧ s.contexts = []) ∨ i ∈ one.contexts
  phase : Reflects i (s.facet i).flight s.phase one.phase

namespace Mirrors

theorem mem (h : Mirrors i s one) : i ∈ one.ids := by
  rw [h.ids]
  exact List.mem_singleton_self i

theorem worker (h : Mirrors i s one) : one.worker i = s.worker i := congrArg Facet.worker h.facet

/-- A step that is nothing to worker `i`. -/
theorem stays (h : Mirrors i s one) (hFaceted : s.Faceted) (hMem : i ∈ s.ids)
    (hStep : SupervisorStep T s label s') (hLabel : label ≠ .cancel)
    (hOther : s.facetAfter i label = s.facet i)
    (hHanded : (s'.phase = .notStarted ∧ s'.contexts = []) ∨ i ∈ one.contexts)
    (hPhase : Reflects i (s.facet i).flight s'.phase one.phase) : Mirrors i s' one := by
  have hFacet : s'.facet i = s.facet i := (hFaceted.facet_eq hStep hMem).trans hOther
  exact {
    ids := h.ids
    facet := h.facet.trans hFacet.symm
    cancelled := h.cancelled.trans (cancelled_step hFaceted.books hStep hLabel).symm
    clock := Nat.le_trans h.clock (steady_step hFaceted.books hStep).clock
    handedOut := hHanded
    phase := hFacet ▸ hPhase }

/-- A step that both take. -/
theorem moves (h : Mirrors i s one) (hFaceted : s.Faceted) (hFaceted' : one.Faceted)
    (hMem : i ∈ s.ids) (hStep : SupervisorStep T s label s') (hLabel : label ≠ .cancel)
    (hStep' : SupervisorStep T one act one') (hAct : act ≠ .cancel)
    (hFacet : one.facetAfter i act = s.facetAfter i label) (hClock : one'.clock ≤ s'.clock)
    (hHanded : (s'.phase = .notStarted ∧ s'.contexts = []) ∨ i ∈ one'.contexts)
    (hPhase : Reflects i (s.facetAfter i label).flight s'.phase one'.phase) : Mirrors i s' one' where
  ids := (steady_step hFaceted'.books hStep').ids.trans h.ids
  facet := by rw [hFaceted'.facet_eq hStep' h.mem, hFacet, hFaceted.facet_eq hStep hMem]
  cancelled := by
    rw [cancelled_step hFaceted'.books hStep' hAct, cancelled_step hFaceted.books hStep hLabel,
      h.cancelled]
  clock := hClock
  handedOut := hHanded
  phase := hFaceted.facet_eq hStep hMem ▸ hPhase

end Mirrors

/-- Contexts are only ever handed out. -/
theorem contexts_durable : Durable T fun s => i ∈ s.contexts where
  workers _ h := h
  log _ h := h
  tasks h := h
  control h := h
  spawn _ h := List.mem_append_left _ h
  announce {s id run outcome} h := by
    unfold announceOutcome
    simp only []
    split_ifs
    · exact h
    · exact h
  restart h := h
  escalate h := @escalate_keeps (fun s => i ∈ s.contexts) _ _ _ _ (fun _ h => h) h
  timeout {s timeout} h := by
    unfold reportTimeout
    simp only []
    split_ifs
    · exact h
    · exact h
  stopping _ h := h
  heartbeat _ h := h
  cancel h := h
  cancelWorker _ h := h

/-- A task of a worker is the only one it has in the join set. -/
theorem Faceted.flight_of_task (h : s.Faceted) (hMem : i ∈ s.ids) {task : Task}
    (hIn : task ∈ s.joinSet) (hOwner : task.worker = i) : (s.facet i).flight = [task.result] := by
  have hResult : task.result ∈ s.flight i :=
    List.mem_map.mpr ⟨task, List.mem_filter.mpr ⟨hIn, decide_eq_true hOwner⟩, rfl⟩
  obtain ⟨result, hOnly⟩ := List.length_eq_one_iff.mp
    (Nat.le_antisymm (h.single i hMem) (List.length_pos_of_mem hResult))
  have hSame : s.flight i = [result] := hOnly
  rw [hSame, List.mem_singleton] at hResult
  rw [hOnly, hResult]

/-- The worker has the same task alone. -/
theorem Mirrors.task (h : Mirrors i s one) (hFaceted : s.Faceted) (hFaceted' : one.Faceted)
    (hMem : i ∈ s.ids) {run : Nat} {task : Task} (hTask : s.findTask run = some task)
    (hOwner : task.worker = i) : (s.facet i).flight ≠ [] ∧ s.Owns i run ∧
      ∃ own, one.findTask own.run = some own ∧ own.result = task.result ∧ one.Owns i own.run := by
  have hOnly := hFaceted.flight_of_task hMem (findTask_mem hTask).1 hOwner
  have hFlight : one.flight i = [task.result] := (congrArg Facet.flight h.facet).trans hOnly
  have hResult : task.result ∈ one.flight i := by
    rw [hFlight]
    exact List.mem_singleton_self _
  obtain ⟨own, hOwn, hSame⟩ := List.mem_map.mp hResult
  obtain ⟨hIn, hOwner'⟩ := List.mem_filter.mp hOwn
  have hFound := findTask_of_mem hFaceted'.books hIn
  refine ⟨?_, (owns_iff hTask).mpr hOwner, own, hFound, hSame,
    (owns_iff hFound).mpr (of_decide_eq_true hOwner')⟩
  rw [hOnly]
  simp

/-- With no task left in company there is none left alone. -/
theorem Mirrors.joinSet_empty (h : Mirrors i s one) (hFaceted' : one.Faceted)
    (hEmpty : (s.facet i).flight = []) : one.joinSet = [] := by
  have hFlight : one.flight i = [] := (congrArg Facet.flight h.facet).trans hEmpty
  rw [flight, List.map_eq_nil_iff, List.filter_eq_nil_iff] at hFlight
  rw [List.eq_nil_iff_forall_not_mem]
  intro task hIn
  have hKnown : task.worker ∈ one.ids := hFaceted'.books.consistent.known task hIn
  rw [h.ids, List.mem_singleton] at hKnown
  exact hFlight task hIn (decide_eq_true hKnown)

/-- Outside its first phase the supervisor has handed out a context of the worker. -/
theorem Mirrors.started (h : Mirrors i s one) (hStarted : s.phase ≠ .notStarted) :
    i ∈ one.contexts := h.handedOut.resolve_left fun hFirst => hStarted hFirst.1

theorem Mirrors.handed (h : Mirrors i s one) (hStep' : SupervisorStep T one act one')
    (hStarted : s.phase ≠ .notStarted) : i ∈ one'.contexts :=
  contexts_durable.step (h.started hStarted) hStep'

theorem joined_clock (hTasks : s.tasks.Consistent) {task : Task} (hIn : task ∈ s.joinSet)
    {result : JoinResult} (hResult : task.result = some result) {outcome : SupervisorOutcome}
    (hOutcome : result.outcome = some outcome) (wall : Option Nat) (now : Instant) :
    ({ s with clock := now }.joined T task result wall).clock = now :=
  clock_eq (joined_spec hTasks hIn hResult hOutcome wall now).1

theorem joined_phase (hTasks : s.tasks.Consistent) {task : Task} (hIn : task ∈ s.joinSet)
    {result : JoinResult} (hResult : task.result = some result) {outcome : SupervisorOutcome}
    (hOutcome : result.outcome = some outcome) (hPhase : s.phase = .head) (wall : Option Nat)
    (now : Instant) : ({ s with clock := now }.joined T task result wall).phase =
      (s.worker task.worker).nextPhase task.worker outcome.hasFailed wall now := by
  have hOwner : task.worker ∈ ({ s with clock := now }.removeTask task).ids := hTasks.known task hIn
  rw [joined_eq (s := { s with clock := now }) hTasks hIn hResult hOutcome,
    (facet_handleOutcome (i := task.worker) hOwner hPhase task.run outcome wall).2]
  rfl

/-- The worker's own outcome is joined alone as in company. -/
theorem Mirrors.join (h : Mirrors i s one) (hFaceted : s.Faceted) (hFaceted' : one.Faceted)
    (hMem : i ∈ s.ids) {run : Nat} {wall : Option Nat} {now : Instant}
    (hStep : SupervisorStep T s (.join run wall now) s') (hOwns : s.Owns i run) :
    ∃ act one', SupervisorStep T one act one' ∧ Mirrors i s' one' := by
  cases takes_of_step hStep with
  | @join _ _ _ task result hPhase hRunning hClock hTask hResult =>
      obtain ⟨hIn, -⟩ := findTask_mem hTask
      have hOwner : task.worker = i := (owns_iff hTask).mp hOwns
      obtain ⟨outcome, hOutcome, hEnded⟩ := hFaceted.books.outcome_of_head hPhase hIn hResult
      obtain ⟨-, -, own, hOwn, hSame, hOwns'⟩ := h.task hFaceted hFaceted' hMem hTask hOwner
      have hOwner' : own.worker = i := (owns_iff hOwn).mp hOwns'
      obtain ⟨hIn', -⟩ := findTask_mem hOwn
      have hHead : one.phase = .head := (hPhase ▸ h.phase).of_head
      have hResult' : own.result = some result := hSame.trans hResult
      have hEnded' : own.outcome = some outcome := by
        rw [Task.outcome, hSame]
        exact hEnded
      have hStep' : SupervisorStep T one (.join own.run wall now)
          ({ one with clock := now }.joined T own result wall) := by
        simp [SupervisorStep, exec, hHead, h.cancelled, hRunning, Nat.le_trans h.clock hClock, hOwn,
          hResult']
      refine ⟨_, _, hStep', h.moves hFaceted hFaceted' hMem hStep (by simp) hStep' (by simp) ?_ ?_
        (Or.inr (h.handed hStep' (by rw [hPhase]; simp))) ?_⟩
      · simp only [facetAfter, hTask, hOwn, Option.bind_some, if_pos hOwner, if_pos hOwner', hEnded,
          hEnded', h.facet]
      · rw [joined_clock hFaceted'.books.consistent hIn' hResult' hOutcome,
          joined_clock hFaceted.books.consistent hIn hResult hOutcome]
      · rw [joined_phase hFaceted'.books.consistent hIn' hResult' hOutcome hHead,
          joined_phase hFaceted.books.consistent hIn hResult hOutcome hPhase, hOwner, hOwner',
          h.worker]
        exact reflects_next ..

theorem clock_foldl {f : Supervisor → WorkerId → Supervisor}
    (hPass : ∀ st id, (f st id).frame = st.frame) : (s.ids.foldl f s).clock = s.clock :=
  clock_eq (foldl_keeps (fun st : Supervisor => st.frame = s.frame) rfl
    fun st id _ hSt => (hPass st id).trans hSt)

/-- The loops over all workers: alone, the supervisor goes through each of them as in company. -/
theorem Mirrors.loop (h : Mirrors i s one) (hFaceted : s.Faceted) (hFaceted' : one.Faceted)
    (hMem : i ∈ s.ids) (hStep : SupervisorStep T s label s')
    (hLoop : label = .start ∨ (∃ wall nows after, label = .tick wall nows after) ∨
      (∃ now, label = .cancelObserved now) ∨ label = .drained) :
    ∃ act one', SupervisorStep T one act one' ∧ Mirrors i s' one' := by
  have hMoves {one' : Supervisor} (hStep' : SupervisorStep T one label one')
      (hClock : one'.clock ≤ s'.clock) (hHanded : i ∈ one'.contexts)
      (hPhase : Reflects i (s.facetAfter i label).flight s'.phase one'.phase) :
      ∃ act one', SupervisorStep T one act one' ∧ Mirrors i s' one' := by
    have hLabel : label ≠ .cancel := by
      rcases hLoop with rfl | ⟨_, _, _, rfl⟩ | ⟨_, rfl⟩ | rfl <;> simp
    refine ⟨label, one', hStep', h.moves hFaceted hFaceted' hMem hStep hLabel hStep' hLabel ?_ hClock
      (Or.inr hHanded) hPhase⟩
    rcases hLoop with rfl | ⟨_, _, _, rfl⟩ | ⟨_, rfl⟩ | rfl <;> simp only [facetAfter, h.facet]
  cases takes_of_step hStep with
  | start hPhase =>
      have hFirst : one.phase = .notStarted := (hPhase ▸ h.phase).of_notStarted
      have hStep' : SupervisorStep T one .start
          { one.ids.foldl (fun s id => s.spawnOne T id) one with phase := .head } := by
        simp [SupervisorStep, exec, hFirst]
      refine hMoves hStep' ?_ ?_ .head
      · show (one.ids.foldl (fun s id => s.spawnOne T id) one).clock ≤
          (s.ids.foldl (fun s id => s.spawnOne T id) s).clock
        rw [clock_foldl fun st id => frame_spawnOne, clock_foldl fun st id => frame_spawnOne]
        exact h.clock
      · show i ∈ (one.ids.foldl (fun s id => s.spawnOne T id) one).contexts
        rw [h.ids, List.foldl_cons, List.foldl_nil, spawnOne, if_pos h.mem]
        exact List.mem_append_right _ (List.mem_singleton_self i)
  | @tick wall nows after hPhase hNows hClock =>
      have hGuard : (one.phase = .head ∧ one.cancelled = false ∨ one.phase = .idle) ∧
          (∀ id ∈ one.ids, one.clock ≤ nows id ∧ nows id ≤ after) ∧ one.clock ≤ after := by
        refine ⟨?_, fun id hIn => ?_, Nat.le_trans h.clock hClock⟩
        · rcases hPhase with ⟨hPhase, hRunning⟩ | hPhase
          · exact Or.inl ⟨(hPhase ▸ h.phase).of_head, h.cancelled.trans hRunning⟩
          · exact Or.inr (hPhase ▸ h.phase).of_idle
        · rw [h.ids, List.mem_singleton] at hIn
          rw [hIn]
          exact ⟨Nat.le_trans h.clock (hNows i hMem).1, (hNows i hMem).2⟩
      have hStep' : SupervisorStep T one (.tick wall nows after)
          { one.watchdogTick T wall nows with phase := .head, clock := after } := if_pos hGuard
      have hStarted : s.phase ≠ .notStarted := by
        rcases hPhase with ⟨hPhase, -⟩ | hPhase <;> simp [hPhase]
      exact hMoves hStep' (Nat.le_refl after) (h.handed hStep' hStarted) .head
  | @cancelObserved now hPhase hCancelled hClock =>
      have hAt : one.phase = .head ∨ one.phase = .idle :=
        hPhase.imp (fun hPhase => (hPhase ▸ h.phase).of_head) fun hPhase => (hPhase ▸ h.phase).of_idle
      have hStep' : SupervisorStep T one (.cancelObserved now)
          { one.ids.foldl stopWorker one with
            phase := .draining 0 0 (now + shutdownGrace.nanos), clock := now } := by
        refine if_pos ⟨?_, h.cancelled.trans hCancelled, Nat.le_trans h.clock hClock⟩
        rcases hAt with hAt | hAt <;> rw [atLoop, hAt]
      have hStarted : s.phase ≠ .notStarted := by
        rcases hPhase with hPhase | hPhase <;> simp [hPhase]
      exact hMoves hStep' (Nat.le_refl now) (h.handed hStep' hStarted) .draining
  | @drained drained aborted hPhase hEmpty =>
      have hIdle : s.flight i = [] := by rw [flight, hEmpty, List.filter_nil, List.map_nil]
      have hNone : one.joinSet = [] := h.joinSet_empty hFaceted' hIdle
      have hEnds : ∃ drained' aborted', SupervisorStep T one .drained
          { one.ids.foldl markStopped one with phase := .returned drained' aborted' } := by
        rcases hPhase with hPhase | ⟨deadline, hPhase⟩
        · obtain ⟨drained', aborted', hAlone | ⟨-, deadline, hAlone⟩⟩ := (hPhase ▸ h.phase).of_aborting
          · exact ⟨drained', aborted', by simp [SupervisorStep, exec, hAlone, hNone]⟩
          · exact ⟨drained', aborted', by simp [SupervisorStep, exec, hAlone, hNone]⟩
        · obtain ⟨drained', aborted', hAlone⟩ := (hPhase ▸ h.phase).of_draining
          exact ⟨drained', aborted', by simp [SupervisorStep, exec, hAlone, hNone]⟩
      obtain ⟨drained', aborted', hStep'⟩ := hEnds
      have hStarted : s.phase ≠ .notStarted := by
        rcases hPhase with hPhase | ⟨deadline, hPhase⟩ <;> simp [hPhase]
      refine hMoves hStep' ?_ (h.handed hStep' hStarted) .returned
      show (one.ids.foldl markStopped one).clock ≤ (s.ids.foldl markStopped s).clock
      have hMark (st : Supervisor) (id : WorkerId) : (st.markStopped id).frame = st.frame := by
        rw [markStopped, frame_emit, frame_setState]
      rw [clock_foldl hMark, clock_foldl hMark]
      exact h.clock
  | _ => simp at hLoop

/-- A restart that is waited out, or cut short by the token. -/
theorem Mirrors.wait (h : Mirrors i s one) (hFaceted : s.Faceted) (hFaceted' : one.Faceted)
    (hMem : i ∈ s.ids) (hStep : SupervisorStep T s label s')
    (hWait : (∃ now, label = .backoffElapsed now) ∨ label = .backoffCancelled) :
    Mirrors i s' one ∨ ∃ act one', SupervisorStep T one act one' ∧ Mirrors i s' one' := by
  cases takes_of_step hStep with
  | @backoffElapsed id name attempts due now hPhase hDue hClock =>
      have hAlone := (hPhase ▸ h.phase).of_backoff
      have hStarted : s.phase ≠ .notStarted := by simp [hPhase]
      by_cases hOwn : id = i
      · subst hOwn
        rw [if_pos rfl] at hAlone
        have hStep' : SupervisorStep T one (.backoffElapsed now)
            ({ one with clock := now }.restartNow T id name attempts) := by
          simp [SupervisorStep, exec, hAlone, hDue, Nat.le_trans h.clock hClock]
        refine Or.inr ⟨_, _, hStep', h.moves hFaceted hFaceted' hMem hStep (by simp) hStep' (by simp)
          (by simp only [facetAfter, hPhase, hAlone, h.facet]) ?_ (Or.inr (h.handed hStep' hStarted))
          .head⟩
        have hResumed (st : Supervisor) : (st.restartNow T id name attempts).clock = st.clock :=
          clock_eq (frame_spawnOne (s := (st.emit _).log _))
        rw [hResumed, hResumed]
      · rw [if_neg hOwn] at hAlone
        have hOther : s.facetAfter i (.backoffElapsed now) = s.facet i := by
          simp only [facetAfter, hPhase, if_neg (Ne.symm hOwn)]
        refine Or.inl (h.stays hFaceted hMem hStep (by simp) hOther (Or.inr (h.started hStarted)) ?_)
        rw [hAlone]
        exact .head
  | @backoffCancelled id name attempts due hPhase hCancelled =>
      have hAlone := (hPhase ▸ h.phase).of_backoff
      have hStarted : s.phase ≠ .notStarted := by simp [hPhase]
      by_cases hOwn : id = i
      · rw [if_pos hOwn] at hAlone
        have hStep' : SupervisorStep T one .backoffCancelled { one with phase := .head } := by
          simp [SupervisorStep, exec, hAlone, h.cancelled, hCancelled]
        exact Or.inr ⟨_, _, hStep', h.moves hFaceted hFaceted' hMem hStep (by simp) hStep' (by simp)
          h.facet h.clock (Or.inr (h.handed hStep' hStarted)) .head⟩
      · rw [if_neg hOwn] at hAlone
        refine Or.inl (h.stays hFaceted hMem hStep (by simp) rfl (Or.inr (h.started hStarted)) ?_)
        rw [hAlone]
        exact .head
  | _ => simp at hWait

/-- The end of a task, and its joining once the loop is over. -/
theorem Mirrors.ends (h : Mirrors i s one) (hFaceted : s.Faceted) (hFaceted' : one.Faceted)
    (hMem : i ∈ s.ids) (hStep : SupervisorStep T s label s')
    (hEnds : (∃ run, label = .drain run) ∨ (∃ run ending, label = .finish run ending) ∨
      ∃ run, label = .abort run) :
    Mirrors i s' one ∨ ∃ act one', SupervisorStep T one act one' ∧ Mirrors i s' one' := by
  have hSpared {run : Nat} {task : Task} (hTask : s.findTask run = some task)
      (hOther : ¬ task.worker = i) : ¬ s.Owns i run := fun hOwns =>
    hOther ((owns_iff hTask).mp hOwns)
  cases takes_of_step hStep with
  | @drain run drained aborted deadline task result hPhase hTask hResult =>
      obtain ⟨drained', aborted', hAlone⟩ := (hPhase ▸ h.phase).of_draining
      by_cases hOwner : task.worker = i
      · obtain ⟨-, hOwns, own, hOwn, hSame, hOwns'⟩ := h.task hFaceted hFaceted' hMem hTask hOwner
        have hStep' : SupervisorStep T one (.drain own.run) { one.removeTask own with
            phase := .draining (countJoined result drained' aborted').1
              (countJoined result drained' aborted').2 deadline } := by
          simp [SupervisorStep, exec, hAlone, hOwn, hSame, hResult]
        exact Or.inr ⟨_, _, hStep', h.moves hFaceted hFaceted' hMem hStep (by simp) hStep' (by simp)
          (by simp only [facetAfter, if_pos hOwns, if_pos hOwns', h.facet]) h.clock
          (Or.inr (h.handed hStep' (by simp [hPhase]))) .draining⟩
      · refine Or.inl (h.stays hFaceted hMem hStep (by simp) (if_neg (hSpared hTask hOwner))
          (Or.inr (h.started (by simp [hPhase]))) ?_)
        rw [hAlone]
        exact .draining
  | @drainAborting run drained aborted task result hPhase hTask hResult =>
      obtain ⟨drained', aborted', hAlone⟩ := (hPhase ▸ h.phase).of_aborting
      by_cases hOwner : task.worker = i
      · obtain ⟨hBusy, hOwns, own, hOwn, hSame, hOwns'⟩ :=
          h.task hFaceted hFaceted' hMem hTask hOwner
        have hAlone := hAlone.resolve_right fun hLate => hBusy hLate.1
        have hStep' : SupervisorStep T one (.drain own.run) { one.removeTask own with
            phase := .aborting (countJoined result drained' aborted').1
              (countJoined result drained' aborted').2 } := by
          simp [SupervisorStep, exec, hAlone, hOwn, hSame, hResult]
        exact Or.inr ⟨_, _, hStep', h.moves hFaceted hFaceted' hMem hStep (by simp) hStep' (by simp)
          (by simp only [facetAfter, if_pos hOwns, if_pos hOwns', h.facet]) h.clock
          (Or.inr (h.handed hStep' (by simp [hPhase]))) .aborting⟩
      · refine Or.inl (h.stays hFaceted hMem hStep (by simp) (if_neg (hSpared hTask hOwner))
          (Or.inr (h.started (by simp [hPhase]))) ?_)
        rcases hAlone with hAlone | ⟨hEmpty, deadline, hAlone⟩
        · rw [hAlone]
          exact .aborting
        · rw [hAlone]
          exact .late hEmpty
  | @finish run ending task hTask hRunning =>
      by_cases hOwner : task.worker = i
      · obtain ⟨hBusy, hOwns, own, hOwn, hSame, hOwns'⟩ :=
          h.task hFaceted hFaceted' hMem hTask hOwner
        have hStep' : SupervisorStep T one (.finish own.run ending)
            (one.endTask own.run fun t => (one.worker t.worker).runner.run t.worker ending) := by
          simp [SupervisorStep, exec, hOwn, hSame, hRunning]
        exact Or.inr ⟨_, _, hStep', h.moves hFaceted hFaceted' hMem hStep (by simp) hStep' (by simp)
          (by simp only [facetAfter, if_pos hOwns, if_pos hOwns', h.facet, h.worker]) h.clock
          (h.handedOut.imp id fun hIn => contexts_durable.step hIn hStep')
          (h.phase.mono fun hEmpty => absurd hEmpty hBusy)⟩
      · exact Or.inl (h.stays hFaceted hMem hStep (by simp) (if_neg (hSpared hTask hOwner)) h.handedOut
          h.phase)
  | @abort run drained aborted task hPhase hTask hRunning =>
      by_cases hOwner : task.worker = i
      · obtain ⟨hBusy, hOwns, own, hOwn, hSame, hOwns'⟩ :=
          h.task hFaceted hFaceted' hMem hTask hOwner
        obtain ⟨drained', aborted', hAlone⟩ := (hPhase ▸ h.phase).of_aborting
        have hAlone := hAlone.resolve_right fun hLate => hBusy hLate.1
        have hStep' : SupervisorStep T one (.abort own.run)
            (one.endTask own.run fun _ => .cancelled) := by
          simp [SupervisorStep, exec, hAlone, hOwn, hSame, hRunning]
        exact Or.inr ⟨_, _, hStep', h.moves hFaceted hFaceted' hMem hStep (by simp) hStep' (by simp)
          (by simp only [facetAfter, if_pos hOwns, if_pos hOwns', h.facet]) h.clock
          (h.handedOut.imp id fun hIn => contexts_durable.step hIn hStep')
          (h.phase.mono fun hEmpty => absurd hEmpty hBusy)⟩
      · exact Or.inl (h.stays hFaceted hMem hStep (by simp) (if_neg (hSpared hTask hOwner)) h.handedOut
          h.phase)
  | _ => simp at hEnds

/-- What others do to the supervisor. -/
theorem Mirrors.outside (h : Mirrors i s one) (hFaceted : s.Faceted) (hFaceted' : one.Faceted)
    (hMem : i ∈ s.ids) (hStep : SupervisorStep T s label s')
    (hOutside : (∃ run wall, label = .heartbeat run wall) ∨ label = .cancel ∨
      ∃ id, label = .cancelWorker id) :
    Mirrors i s' one ∨ ∃ act one', SupervisorStep T one act one' ∧ Mirrors i s' one' := by
  cases takes_of_step hStep with
  | @heartbeat run wall id hContext =>
      by_cases hOwn : id = i
      · have hHanded : i ∈ one.contexts := by
          rcases h.handedOut with ⟨-, hNone⟩ | hIn
          · rw [hNone] at hContext
            cases hContext
          · exact hIn
        obtain ⟨own, hOwnContext⟩ := List.mem_iff_getElem?.mp hHanded
        have hStep' : SupervisorStep T one (.heartbeat own wall)
            ((one.modifyWorker i fun r => { r with lastHeartbeat := unixNanos wall }).log
              (.heartbeat i own (unixNanos wall))) := by
          simp [SupervisorStep, exec, hOwnContext]
        have hBeats : s.facetAfter i (.heartbeat run wall) = (s.facet i).beat wall :=
          if_pos (hOwn ▸ hContext)
        have hBeats' : one.facetAfter i (.heartbeat own wall) = (one.facet i).beat wall :=
          if_pos hOwnContext
        refine Or.inr ⟨_, _, hStep', h.moves hFaceted hFaceted' hMem hStep (by simp) hStep' (by simp)
          (by rw [hBeats, hBeats', h.facet]) h.clock (Or.inr hHanded) ?_⟩
        rw [hBeats]
        exact h.phase
      · have hOther : s.facetAfter i (.heartbeat run wall) = s.facet i :=
          if_neg (by simpa [hContext] using hOwn)
        exact Or.inl (h.stays hFaceted hMem hStep (by simp) hOther h.handedOut h.phase)
  | cancel =>
      have hStep' : SupervisorStep T one .cancel ({ one with cancelled := true }.log .cancelCalled) :=
        rfl
      exact Or.inr ⟨_, _, hStep', {
        ids := h.ids
        facet := by rw [hFaceted'.facet_eq hStep' h.mem, hFaceted.facet_eq hStep hMem]; exact h.facet
        cancelled := rfl
        clock := h.clock
        handedOut := h.handedOut
        phase := by rw [hFaceted.facet_eq hStep hMem]; exact h.phase }⟩
  | @cancelWorker id hIn =>
      by_cases hOwn : id = i
      · have hStep' : SupervisorStep T one (.cancelWorker id)
            ((one.cancelWorkerToken id).log (.workerCancelCalled id)) := if_pos (hOwn ▸ h.mem)
        refine Or.inr ⟨_, _, hStep', h.moves hFaceted hFaceted' hMem hStep (by simp) hStep' (by simp)
          (by simp only [facetAfter, if_pos hOwn.symm, h.facet]) h.clock h.handedOut ?_⟩
        simp only [facetAfter, if_pos hOwn.symm]
        exact h.phase
      · exact Or.inl (h.stays hFaceted hMem hStep (by simp) (if_neg (Ne.symm hOwn)) h.handedOut h.phase)
  | _ => simp at hOutside

/-- Whatever the supervisor of many does, the supervisor of one does the same, or nothing. -/
theorem Mirrors.step (h : Mirrors i s one) (hFaceted : s.Faceted) (hFaceted' : one.Faceted)
    (hMem : i ∈ s.ids) (hStep : SupervisorStep T s label s') :
    Mirrors i s' one ∨ ∃ act one', SupervisorStep T one act one' ∧ Mirrors i s' one' := by
  cases label with
  | start | drained => exact Or.inr (h.loop hFaceted hFaceted' hMem hStep (by simp))
  | tick wall nows after => exact Or.inr (h.loop hFaceted hFaceted' hMem hStep (by simp))
  | cancelObserved now => exact Or.inr (h.loop hFaceted hFaceted' hMem hStep (by simp))
  | backoffElapsed now => exact h.wait hFaceted hFaceted' hMem hStep (by simp)
  | backoffCancelled => exact h.wait hFaceted hFaceted' hMem hStep (by simp)
  | drain run | abort run => exact h.ends hFaceted hFaceted' hMem hStep (by simp)
  | finish run ending => exact h.ends hFaceted hFaceted' hMem hStep (by simp)
  | heartbeat run wall => exact h.outside hFaceted hFaceted' hMem hStep (by simp)
  | cancel => exact h.outside hFaceted hFaceted' hMem hStep (by simp)
  | cancelWorker id => exact h.outside hFaceted hFaceted' hMem hStep (by simp)
  | join run wall now =>
      by_cases hOwns : s.Owns i run
      · exact Or.inr (h.join hFaceted hFaceted' hMem hStep hOwns)
      · cases takes_of_step hStep with
        | @join _ _ _ task result hPhase hRunning hClock hTask hResult =>
            have hIn := (findTask_mem hTask).1
            have hOther : ¬ task.worker = i := fun hOwner => hOwns ((owns_iff hTask).mpr hOwner)
            obtain ⟨outcome, hOutcome, -⟩ := hFaceted.books.outcome_of_head hPhase hIn hResult
            have hSpared : s.facetAfter i (.join run wall now) = s.facet i := by
              simp only [facetAfter, hTask, Option.bind_some, if_neg hOther]
            refine Or.inl (h.stays hFaceted hMem hStep (by simp) hSpared
              (Or.inr (h.started (by simp [hPhase]))) ?_)
            have hAlone : one.phase = .head := (hPhase ▸ h.phase).of_head
            rw [joined_phase hFaceted.books.consistent hIn hResult hOutcome hPhase, hAlone]
            exact reflects_next_other hOther ..
  | joinNone =>
      simp only [SupervisorStep, exec] at hStep
      split_ifs at hStep with hGuard
      obtain ⟨hPhase, hRunning, hEmpty⟩ := hGuard
      have hIdle : s.flight i = [] := by rw [flight, hEmpty, List.filter_nil, List.map_nil]
      have hStep' : SupervisorStep T one .joinNone { one with phase := .idle } :=
        if_pos ⟨(hPhase ▸ h.phase).of_head, h.cancelled.trans hRunning, h.joinSet_empty hFaceted' hIdle⟩
      have hNone : SupervisorStep T s .joinNone s' := if_pos ⟨hPhase, hRunning, hEmpty⟩ |>.trans hStep
      refine Or.inr ⟨_, _, hStep', h.moves hFaceted hFaceted' hMem hNone (by simp) hStep' (by simp)
        h.facet ?_ (Or.inr (h.handed hStep' (by simp [hPhase]))) ?_⟩
      · obtain rfl := Option.some.inj hStep
        exact h.clock
      · obtain rfl := Option.some.inj hStep
        exact .idle
  | graceExpired now =>
      cases takes_of_step hStep with
      | @graceExpired drained aborted deadline _ hPhase hDue hClock =>
          obtain ⟨drained', aborted', hAlone⟩ := (hPhase ▸ h.phase).of_draining
          by_cases hEmpty : (s.facet i).flight = []
          · refine Or.inl (h.stays hFaceted hMem hStep (by simp) rfl
              (Or.inr (h.started (by simp [hPhase]))) ?_)
            rw [hAlone]
            exact .late hEmpty
          · have hBusy : one.joinSet ≠ [] := by
              intro hNone
              have hFlight : one.flight i = [] := by rw [flight, hNone, List.filter_nil, List.map_nil]
              exact hEmpty ((congrArg Facet.flight h.facet).symm.trans hFlight)
            have hStep' : SupervisorStep T one (.graceExpired now)
                { one with phase := .aborting drained' aborted', clock := now } := by
              simp [SupervisorStep, exec, hAlone, hDue, hBusy, Nat.le_trans h.clock hClock]
            exact Or.inr ⟨_, _, hStep', h.moves hFaceted hFaceted' hMem hStep (by simp) hStep' (by simp)
              h.facet (Nat.le_refl now) (Or.inr (h.handed hStep' (by simp [hPhase]))) .aborting⟩

theorem mirrors_new (roster : Roster) : Mirrors i (new roster) (new (roster.only i)) where
  ids := rfl
  facet := rfl
  cancelled := rfl
  clock := Nat.le_refl _
  handedOut := Or.inl ⟨rfl, rfl⟩
  phase := .notStarted

end Supervisor

/-- Whatever becomes of a worker among others can become of it alone: for every reachable
state of the supervisor of many there is a reachable state of the supervisor of that worker
alone in which its entry, the events about it and its tasks are the same, up to the id under
which that supervisor would have registered it. -/
theorem worker_isolated (T : TaskIds) (roster : Roster) (s : Supervisor)
    (reach : Reachable (SupervisorStep T) (.new roster) s) (i : WorkerId) (hMem : i ∈ roster.ids) :
    ∃ one : Supervisor, Reachable (SupervisorStep T) (.new (roster.only i)) one ∧
      one.facet i = s.facet i ∧ one.cancelled = s.cancelled ∧ one.clock ≤ s.clock := by
  let rel (s one : Supervisor) : Prop :=
    s.Faceted ∧ one.Faceted ∧ i ∈ s.ids ∧ Supervisor.Mirrors i s one
  have hMatched : ∀ s one label s', rel s one → SupervisorStep T s label s' →
      ∃ one', Reachable (SupervisorStep T) one one' ∧ rel s' one' := by
    rintro s one label s' ⟨hFaceted, hFaceted', hMem, hMirrors⟩ hStep
    have hMem' : i ∈ s'.ids := (Supervisor.steady_step hFaceted.books hStep).ids ▸ hMem
    rcases hMirrors.step hFaceted hFaceted' hMem hStep with hStays | ⟨act, one', hStep', hMoves⟩
    · exact ⟨one, .refl one, hFaceted.step hStep, hFaceted', hMem', hStays⟩
    · exact ⟨one', Reachable.tail (.refl one) hStep', hFaceted.step hStep, hFaceted'.step hStep', hMem',
        hMoves⟩
  obtain ⟨one, hReach, -, -, -, hMirrors⟩ := reach.simulated rel
    ⟨Supervisor.faceted_new roster, Supervisor.faceted_new (roster.only i), hMem,
      Supervisor.mirrors_new roster⟩ hMatched
  exact ⟨one, hReach, hMirrors.facet, hMirrors.cancelled, hMirrors.clock⟩

/-- Held up by the other's backoff, the failure of the second worker is told late, but no
otherwise than alone. -/
theorem worker_isolated_pair : ∃ one : Supervisor,
    Reachable (SupervisorStep .counting) (.new (Roster.pair.only 2)) one ∧
      one.told 2 = [.started 2 "beta", .failed 2 "beta" "disk full", .stopped 2 "beta"] := by
  obtain ⟨s, hRun, hTold⟩ : ∃ s : Supervisor,
      replay (Supervisor.exec .counting) (.new .pair)
        (pairFails ++
          [SupervisorLabel.backoffElapsed 200000007, .join 1 (some 6) 200000007]) = some s ∧
      s.told 2 = [.started 2 "beta", .failed 2 "beta" "disk full", .stopped 2 "beta"] := ⟨_, rfl, rfl⟩
  obtain ⟨one, hReach, hFacet, -⟩ := worker_isolated .counting .pair s
    (runs_of_replay hRun).reachable 2 (by decide)
  exact ⟨one, hReach, (congrArg Facet.told hFacet).trans hTold⟩

end ServiceKernel
