import ServiceKernel.Lifecycle.Controller
import ServiceKernel.Semantics.Chronicle

/-! Any number of threads that move one lifecycle controller. The granted moves form a walk
through the table, and once all calls have returned every move has been reported. -/
namespace ServiceKernel

open Interleaving Execution

abbrev LifecycleConfig (Thread : Type) :=
  Config LifecycleSig Thread (Clocked LifecycleInner) LifecycleRecord KernelState
    (Except TransitionError Unit)

/-- No call in progress on a fresh controller. -/
def LifecycleConfig.fresh (Thread : Type) (clock : Instant) : LifecycleConfig Thread :=
  .start ⟨⟨.fresh clock, clock⟩, []⟩

abbrev LifecycleConfig.state {Thread : Type} (c : LifecycleConfig Thread) : KernelState :=
  c.world.shared.state.state

abbrev LifecycleEntry (Thread : Type) :=
  Entry LifecycleSig Thread KernelState (Except TransitionError Unit)

section Deeds

/-- The move that an operation makes: where from, where to and when. -/
def moveOf (d : Deed LifecycleSig) : Option (KernelState × KernelState × Instant) :=
  match d with
  | ⟨.checkAndSet toState, .ok (fromState, now)⟩ => some (fromState, toState, now)
  | _ => none

def eventOf (d : Deed LifecycleSig) : Option LifecycleEvent :=
  match d with
  | ⟨.emit event, _⟩ => some event
  | _ => none

def isCounter (d : Deed LifecycleSig) : Bool :=
  match d with
  | ⟨.counter _, _⟩ => true
  | _ => false

/-- The event that reports a move. -/
def reportOf (move : KernelState × KernelState × Instant) : LifecycleEvent :=
  .transition move.1 move.2.1 move.2.2

/-- What a whole `transition` performs: a refused check, or a move and its reports. -/
inductive TransitionDeeds (toState : KernelState) :
    List (Deed LifecycleSig) → Except TransitionError Unit → Prop where
  | refused (e : TransitionError) :
      TransitionDeeds toState [⟨.checkAndSet toState, .error e⟩] (.error e)
  | moved (fromState : KernelState) (now : Instant) :
      TransitionDeeds toState [⟨.checkAndSet toState, .ok (fromState, now)⟩,
        ⟨.emit (.transition fromState toState now), ()⟩, ⟨.gauge toState.phase.ordinal, ()⟩,
        ⟨.counter toState.asStr, ()⟩] (.ok ())

theorem path_transition {toState : KernelState} {deeds : List (Deed LifecycleSig)}
    {r : Except TransitionError Unit} (h : (transition toState).Path deeds r) :
    TransitionDeeds toState deeds r := by
  obtain ⟨answer, _, rfl, hRest⟩ := Program.path_perform_iff.mp h
  cases answer with
  | error e =>
      obtain ⟨rfl, rfl⟩ := Program.path_done_iff.mp hRest
      exact .refused e
  | ok move =>
      obtain ⟨_, _, rfl, hGauge⟩ := Program.path_perform_iff.mp hRest
      obtain ⟨_, _, rfl, hCounter⟩ := Program.path_perform_iff.mp hGauge
      obtain ⟨_, _, rfl, hEnd⟩ := Program.path_perform_iff.mp hCounter
      obtain ⟨rfl, rfl⟩ := Program.path_done_iff.mp hEnd
      exact .moved move.1 move.2

namespace TransitionDeeds

variable {toState : KernelState} {deeds : List (Deed LifecycleSig)}
  {r : Except TransitionError Unit}

theorem reported (h : TransitionDeeds toState deeds r) :
    (deeds.filterMap eventOf).Perm (deeds.filterMap fun d => (moveOf d).map reportOf) := by
  cases h with
  | refused e => exact .refl _
  | moved fromState now => exact .refl _

theorem counted (h : TransitionDeeds toState deeds r) :
    deeds.countP isCounter = if r.isOk then 1 else 0 := by
  cases h with
  | refused e => rfl
  | moved fromState now => rfl

theorem failed (h : TransitionDeeds toState deeds r) {e : TransitionError} (hError : r = .error e) :
    deeds = [⟨.checkAndSet toState, .error e⟩] := by
  cases h with
  | refused e' =>
      cases hError
      rfl
  | moved fromState now => cases hError

end TransitionDeeds

end Deeds

section Walk

/-- A move of the table. -/
def LegalMove (s : KernelState) (move : KernelState × KernelState × Instant) (s' : KernelState) :
    Prop :=
  move.1 = s ∧ move.2.1 = s' ∧ isLegal s s' = true

theorem isLegal_ordinal {s s' : KernelState} (h : isLegal s s' = true) :
    s.phase.ordinal ≤ s'.phase.ordinal := by
  revert h
  cases s <;> cases s' <;> decide

theorem not_isLegal_of_terminal {s s' : KernelState} (h : s.isTerminal = true) :
    isLegal s s' = false := by
  revert h
  cases s <;> cases s' <;> decide

/-- The phases along a walk never go back. -/
theorem walk_ordinals {s s' : KernelState} {moves : List (KernelState × KernelState × Instant)}
    (run : Runs LegalMove s moves s') :
    ((s :: moves.map fun move => move.2.1).map fun state => state.phase.ordinal).Pairwise (· ≤ ·) ∧
      ∀ state ∈ s :: moves.map fun move => move.2.1, state.phase.ordinal ≤ s'.phase.ordinal := by
  induction run with
  | zero => simp
  | @succ middle s' moves move prior last ih =>
      obtain ⟨-, rfl, hLegal⟩ := last
      have hLe := isLegal_ordinal hLegal
      have hPast : ∀ state ∈ s :: moves.map fun move => move.2.1,
          state.phase.ordinal ≤ move.2.1.phase.ordinal := fun state hMem =>
        Nat.le_trans (ih.2 state hMem) hLe
      rw [List.map_append, ← List.cons_append]
      refine ⟨?_, fun state hMem => ?_⟩
      · rw [List.map_append, List.pairwise_append]
        refine ⟨ih.1, List.pairwise_singleton _ _, fun m hM n hN => ?_⟩
        obtain ⟨state, hMem, rfl⟩ := List.mem_map.mp hM
        obtain rfl : n = move.2.1.phase.ordinal := by simpa using hN
        exact hPast state hMem
      · rcases List.mem_append.mp hMem with hMem | hMem
        · exact hPast state hMem
        · obtain rfl : state = move.2.1 := by simpa using hMem
          exact Nat.le_refl _

variable {Thread : Type} {t : Thread} {o : LifecycleOp} {a : LifecycleSig.Ans o}
  {l l' : Clocked LifecycleInner} {deeds : List (Thread × Deed LifecycleSig)}

/-- An operation makes a move of the table, or changes nothing. -/
theorem lifecycle_exec (h : (lifecycleMachine Thread).exec t o a l = some l') :
    (moveOf ⟨o, a⟩ = none ∧ l' = l) ∨
      ∃ move, moveOf ⟨o, a⟩ = some move ∧ LegalMove l.state.state move l'.state.state := by
  cases o with
  | checkAndSet toState =>
      cases a with
      | error e =>
          obtain ⟨-, -, rfl⟩ := lifecycle_refused h
          exact Or.inl ⟨rfl, rfl⟩
      | ok answer =>
          obtain ⟨hLegal, hFrom, -, rfl⟩ := lifecycle_moved h
          exact Or.inr ⟨_, rfl, hFrom, rfl, hLegal⟩
  | snapshot =>
      simp only [lifecycleMachine, Option.ite_none_right_eq_some, Option.some.injEq] at h
      exact Or.inl ⟨rfl, h.2.symm⟩
  | _ => exact Or.inl ⟨rfl, (Option.some.inj h).symm⟩

theorem carries_walk (h : (lifecycleMachine Thread).Carries l deeds l') :
    Runs LegalMove l.state.state (deeds.filterMap fun d => moveOf d.2) l'.state.state := by
  unfold Machine.Carries at h
  induction h with
  | zero => exact .zero _
  | @succ middle l' deeds d prior last ih =>
      rw [List.filterMap_append]
      rcases lifecycle_exec last with ⟨hNone, rfl⟩ | ⟨move, hMove, hLegal⟩
      · have hNothing : [d].filterMap (fun d => moveOf d.2) = [] := by
          simpa using hNone
        rw [hNothing, List.append_nil]
        exact ih
      · have hOne : [d].filterMap (fun d => moveOf d.2) = [move] := by
          simp [show moveOf d.2 = some move from hMove]
        rw [hOne]
        exact ih.succ hLegal

end Walk

section Accounted

variable {Thread : Type} [DecidableEq Thread] {clock : Instant} {c c' : LifecycleConfig Thread}
  {history later : List (LifecycleEntry Thread)}

/-- The moves of a run in the order in which the lock granted them. -/
def movesOf (history : List (LifecycleEntry Thread)) :
    List (KernelState × KernelState × Instant) :=
  (deedsOf history).filterMap fun d => moveOf d.2

def eventsOf (history : List (LifecycleEntry Thread)) : List LifecycleEvent :=
  (deedsOf history).filterMap fun d => eventOf d.2

/-- How the transitions of a run are accounted for. -/
structure TransitionsAccounted (clock : Instant) (history : List (LifecycleEntry Thread))
    (c : LifecycleConfig Thread) : Prop where
  /-- The moves lead from `Created` to the current state, each along the table. -/
  walk : Runs LegalMove .created (movesOf history) c.state
  ordinals : ((KernelState.created :: (movesOf history).map fun move => move.2.1).map
    fun state => state.phase.ordinal).Pairwise (· ≤ ·)
  /-- At rest every move has been reported once, and counted once. -/
  reported : c.Quiescent → (eventsOf history).Perm ((movesOf history).map reportOf)
  counted : c.Quiescent → (deedsOf history).countP (fun d => isCounter d.2) =
    (completedOf history).countP fun call => call.result.isOk
  /-- A call that fails has only been refused, and its check leaves everything as it was. -/
  failed : ∀ call ∈ completedOf history, ∀ e, call.result = .error e →
    call.deeds = [⟨.checkAndSet call.call, .error e⟩]
  unchanged : ∀ before after t toState e,
    deedsOf history = before ++ (t, ⟨.checkAndSet toState, .error e⟩) :: after →
    ∃ l, (lifecycleMachine Thread).Carries ⟨.fresh clock, clock⟩ before l ∧
      (lifecycleMachine Thread).Carries ⟨.fresh clock, clock⟩
        (before ++ [(t, ⟨.checkAndSet toState, .error e⟩)]) l
  /-- Once the state is terminal it stays, and the calls that begin later fail. -/
  closed : c.state.isTerminal → ∀ later (c' : LifecycleConfig Thread),
    Chronicle (lifecycleMachine Thread) transition c later c' → c'.state = c.state ∧
      ∀ before after t k r, later = before ++ .returned t k r :: after →
        (∃ k', .began t k' ∈ before) → ∃ e, r = .error e

/-- A thread that began its call after the end is about to be refused, or has been. -/
def Barred (c : LifecycleConfig Thread) (t : Thread) : Prop :=
  c.threads t = .idle ∨ (∃ k, c.threads t = .running k (transition k)) ∨
    ∃ k e, c.threads t = .running k (.done (.error e))

theorem barred_of_terminal (hTerminal : c.state.isTerminal = true)
    (h : Chronicle (lifecycleMachine Thread) transition c later c') :
    c'.world.shared = c.world.shared ∧ ∀ t, (∃ k, .began t k ∈ later) → Barred c' t := by
  induction h with
  | start => exact ⟨rfl, fun t ⟨k, hMem⟩ => by cases hMem⟩
  | @began later c' t k prior hIdle ih =>
      refine ⟨ih.1, fun u ⟨k', hMem⟩ => ?_⟩
      rcases eq_or_ne u t with rfl | hne
      · exact Or.inr (Or.inl ⟨k, by simp⟩)
      · have hEarlier : .began u k' ∈ later := by
          simpa [hne] using hMem
        simpa [Barred, hne] using ih.2 u ⟨k', hEarlier⟩
  | @did later c' t k o next a shared prior hRun hExec ih =>
      have hStill : moveOf ⟨o, a⟩ = none ∧ shared = c'.world.shared := by
        rcases lifecycle_exec hExec with hSame | ⟨move, -, -, -, hLegal⟩
        · exact hSame
        · rw [ih.1, not_isLegal_of_terminal hTerminal] at hLegal
          cases hLegal
      refine ⟨hStill.2.trans ih.1, fun u ⟨k', hMem⟩ => ?_⟩
      have hEarlier : .began u k' ∈ later := by
        simpa using hMem
      rcases eq_or_ne u t with rfl | hne
      · rcases ih.2 u ⟨k', hEarlier⟩ with hIdle | ⟨k₁, hFresh⟩ | ⟨k₁, e, hDone⟩
        · rw [hRun] at hIdle
          cases hIdle
        · rw [hRun] at hFresh
          cases hFresh
          cases a with
          | error e => exact Or.inr (Or.inr ⟨k, e, by simp; rfl⟩)
          | ok move => cases hStill.1
        · rw [hRun] at hDone
          cases hDone
      · simpa [Barred, hne] using ih.2 u ⟨k', hEarlier⟩
  | @returned later c' t k r prior hRun ih =>
      refine ⟨ih.1, fun u ⟨k', hMem⟩ => ?_⟩
      have hEarlier : .began u k' ∈ later := by
        simpa using hMem
      rcases eq_or_ne u t with rfl | hne
      · exact Or.inl (by simp)
      · simpa [Barred, hne] using ih.2 u ⟨k', hEarlier⟩

theorem later_fails (hTerminal : c.state.isTerminal = true)
    (h : Chronicle (lifecycleMachine Thread) transition c later c') :
    ∀ before after t k r, later = before ++ .returned t k r :: after →
      (∃ k', .began t k' ∈ before) → ∃ e, r = .error e := by
  induction h with
  | start => simp
  | began prior hIdle ih =>
      intro before after t k r hSplit hBegan
      rcases split_concat hSplit with ⟨-, hLast⟩ | ⟨rest, hEarlier⟩
      · cases hLast
      · exact ih before rest t k r hEarlier hBegan
  | did prior hRun hExec ih =>
      intro before after t k r hSplit hBegan
      rcases split_concat hSplit with ⟨-, hLast⟩ | ⟨rest, hEarlier⟩
      · cases hLast
      · exact ih before rest t k r hEarlier hBegan
  | @returned later c' u k₁ r₁ prior hRun ih =>
      intro before after t k r hSplit hBegan
      rcases split_concat hSplit with ⟨rfl, hLast⟩ | ⟨rest, hEarlier⟩
      · cases hLast
        rcases (barred_of_terminal hTerminal prior).2 u hBegan with hIdle | ⟨k', hFresh⟩ | ⟨k', e, hDone⟩
        · rw [hRun] at hIdle
          cases hIdle
        · rw [hRun] at hFresh
          cases hFresh
        · rw [hRun] at hDone
          cases hDone
          exact ⟨e, rfl⟩
      · exact ih before rest t k r hEarlier hBegan

/-- Whatever the schedule of the calls, their transitions are accounted for. -/
theorem transitions_accounted (clock : Instant) (history : List (LifecycleEntry Thread))
    (c : LifecycleConfig Thread)
    (h : Chronicle (lifecycleMachine Thread) transition (LifecycleConfig.fresh Thread clock)
      history c) : TransitionsAccounted clock history c := by
  have hStart : Chronicle (lifecycleMachine Thread) transition
      (Config.start (LifecycleConfig.fresh Thread clock).world) history c := h
  have hShape : ∀ call ∈ completedOf history, TransitionDeeds call.call call.deeds call.result :=
    fun call hCall => path_transition (hStart.completed_path call hCall)
  have hWalk : Runs LegalMove .created (movesOf history) c.state := carries_walk h.carries
  refine ⟨hWalk, (walk_ordinals hWalk).1, fun hQuiet => ?_, fun hQuiet => ?_,
    fun call hCall e hError => ?_, fun before after t toState e hSplit => ?_,
    fun hTerminal later c' hLater => ⟨?_, later_fails hTerminal hLater⟩⟩
  · have hPerm := hStart.settled_perm eventOf (fun d => (moveOf d).map reportOf) hQuiet
      fun call hCall => (hShape call hCall).reported
    rw [movesOf, List.map_filterMap]
    exact hPerm
  · rw [hStart.settled_count hQuiet isCounter,
      List.map_congr_left fun call hCall => (hShape call hCall).counted]
    exact sum_indicator _ _
  · exact (hShape call hCall).failed hError
  · have hCarries : (lifecycleMachine Thread).Carries ⟨.fresh clock, clock⟩ (deedsOf history)
        c.world.shared := h.carries
    rw [hSplit] at hCarries
    obtain ⟨l, hBefore, hRest⟩ := Runs.append_iff.mp hCarries
    obtain ⟨l', hRefused, -⟩ := Runs.cons_iff.mp hRest
    obtain ⟨-, -, rfl⟩ := lifecycle_refused hRefused
    exact ⟨_, hBefore, hBefore.succ hRefused⟩
  · rw [LifecycleConfig.state, (barred_of_terminal hTerminal hLater).1]

/-- The answer an operation gives when it reads the clock where it stands. -/
def lifecycleAnswer (_ : Thread) (o : LifecycleOp) (l : Clocked LifecycleInner) :
    LifecycleSig.Ans o :=
  match o with
  | .checkAndSet toState => (assertLegal l.state.state toState).map fun _ => (l.state.state, l.clock)
  | .emit _ => ()
  | .gauge _ => ()
  | .counter _ => ()
  | .snapshot => l.state.snapshot

/-- Two threads boot one controller: one of them succeeds. -/
theorem transitions_accounted_race : ∃ history, ∃ c : LifecycleConfig Bool, c.Quiescent ∧
    (completedOf history).map (fun call => call.result) =
      [.error ⟨.booting, .booting⟩, .ok ()] ∧ TransitionsAccounted 0 history c := by
  obtain ⟨history, c, hRun, hFalse, hTrue, hResults⟩ : ∃ history, ∃ c : LifecycleConfig Bool,
      scheduleNoting (lifecycleMachine Bool) transition lifecycleAnswer
        ([], LifecycleConfig.fresh Bool 0) [.call false .booting, .call true .booting, .go false,
          .go true, .ret true, .go false, .go false, .go false, .ret false] = some (history, c) ∧
      c.threads false = .idle ∧ c.threads true = .idle ∧
      (completedOf history).map (fun call => call.result) =
        [.error ⟨.booting, .booting⟩, .ok ()] := ⟨_, _, rfl, rfl, rfl, rfl⟩
  have hQuiet : c.Quiescent := fun t => by cases t <;> assumption
  exact ⟨history, c, hQuiet, hResults,
    transitions_accounted 0 history c (Chronicle.start.scheduled hRun)⟩

end Accounted

end ServiceKernel
