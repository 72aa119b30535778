import Mathlib.Data.Set.Insert
import ServiceKernel.Kernel.LockOrder

/-! When the threads of a kernel deadlock on its two mutexes, and which steps of a
run bring that about. -/
namespace ServiceKernel

open Interleaving Execution

variable {Thread : Type}

/-- Each thread's position tells which mutexes it holds. -/
def LocksHeld (pos : Thread → LockPosition) (w : KernelWorld Thread) : Prop :=
  ∀ m t, w.shared.holder m = some t ↔ (pos t).holds m = true

variable [DecidableEq Thread]

theorem LocksHeld.keeps {pos : Thread → LockPosition} {w : KernelWorld Thread} {t : Thread}
    {o : KernelOp} {a : KernelSig.Ans o} {shared : KernelInner Thread} (h : LocksHeld pos w)
    (hPermits : lockProtocol.Permits (pos t) o)
    (hExec : (kernelMachine Thread).exec t o a w.shared = some shared) :
    ∃ p, lockProtocol.next (pos t) o a = some p ∧
      LocksHeld (Function.update pos t p) ((kernelMachine Thread).after w t o a shared) := by
  obtain ⟨p, hNext⟩ := LockPosition.next_isSome hPermits a
  refine ⟨p, hNext, fun m u => ?_⟩
  by_cases hLock : ∃ locked, o = .lock locked
  · obtain ⟨locked, rfl⟩ := hLock
    have hHolds := LockPosition.locks_holds hNext m
    simp only [kernelMachine, kernelExec] at hExec
    split at hExec
    · rename_i hFree
      obtain rfl := Option.some.inj hExec
      have hNobody : ∀ u, (pos u).holds locked = false := fun u => by
        have := h locked u
        simpa [hFree] using this
      simp only [Machine.after_shared, KernelInner.locks]
      rcases eq_or_ne m locked with rfl | hMutex
      · rcases eq_or_ne u t with rfl | hne
        · simp [hHolds]
        · simp [hne, hne.symm, hNobody]
      · rcases eq_or_ne u t with rfl | hne
        · simp [hMutex, hHolds, h m u]
        · simp [hMutex, hne, h m u]
    · cases hExec
  · by_cases hUnlock : ∃ released, o = .unlock released
    · obtain ⟨released, rfl⟩ := hUnlock
      obtain ⟨hHeld, hHolds⟩ := LockPosition.unlocks_holds hNext
      obtain rfl := Option.some.inj hExec
      have hOwner := (h released t).mpr hHeld
      simp only [Machine.after_shared, KernelInner.unlocks]
      rcases eq_or_ne m released with rfl | hMutex
      · rcases eq_or_ne u t with rfl | hne
        · simp [hHolds]
        · have hOther : (pos u).holds m = false := by
            have := h m u
            simpa [hOwner, hne.symm] using this
          simp [hne, hOther]
      · rcases eq_or_ne u t with rfl | hne
        · simp [hMutex, hHolds, h m u]
        · simp [hMutex, hne, h m u]
    · have hHolder := kernelExec_holder hExec (fun m hEq => hLock ⟨m, hEq⟩)
        fun m hEq => hUnlock ⟨m, hEq⟩
      have hHolds := LockPosition.next_holds (fun m hEq => hLock ⟨m, hEq⟩)
        (fun m hEq => hUnlock ⟨m, hEq⟩) hNext
      simp only [Machine.after_shared, hHolder]
      rcases eq_or_ne u t with rfl | hne
      · simp [hHolds, h m u]
      · simp [hne, h m u]

/-- Moving a thread between positions that hold nothing. -/
theorem LocksHeld.update {pos : Thread → LockPosition} {w : KernelWorld Thread} {t : Thread}
    {p : LockPosition} (h : LocksHeld pos w) (hNow : ∀ m, (pos t).holds m = false)
    (hNew : ∀ m, p.holds m = false) : LocksHeld (Function.update pos t p) w := by
  intro m u
  rcases eq_or_ne u t with rfl | hne
  · simpa [hNew, hNow] using h m u
  · simpa [hne] using h m u

theorem LockPosition.begins_holds (c : KernelCall) (m : KernelMutex) :
    (begins c).holds m = false := by
  cases c <;> rfl

theorem LockPosition.begins_ne (c : KernelCall) :
    begins c ≠ .recording ∧ begins c ≠ .observing := by
  cases c <;> simp [begins, KernelCall.observes]

theorem LockPosition.next_observes {p p' : LockPosition} {o : KernelOp} {a : KernelSig.Ans o}
    (h : p.next o a = some p') : p'.observes = p.observes := by
  cases o with
  | lock m => cases p <;> cases m <;> cases h <;> rfl
  | unlock m => cases p <;> cases m <;> cases h <;> rfl
  | finishCallback c s => cases p <;> cases c <;> cases a <;> cases h <;> rfl
  | startCallback | insertBooted | insertLoaded | loadedKeys | readBook | healthOf =>
      exact congrArg observes (stayAt_eq h)
  | _ => exact congrArg observes (stayAt_or_eq h)

/-- Kernel methods lock as the protocol says, and positions tell who holds what. -/
abbrev lockTypestate (Thread : Type) [DecidableEq Thread] (k : Kernel) :
    Typestate (kernelMachine Thread) (kernelBody k) where
  protocol := lockProtocol
  begins := LockPosition.begins
  within c p := p.observes = c.observes
  returns c _ p := p = LockPosition.begins c
  inv := LocksHeld
  within_begins c := by cases c <;> rfl
  within_next _ _ _ _ _ hWithin hNext := (LockPosition.next_observes hNext).trans hWithin
  obeys := lock_follows_kernelBody k
  enters _ _ _ c hInv hRest :=
    LocksHeld.update hInv (fun _ => hRest ▸ rfl) (LockPosition.begins_holds c)
  keeps _ _ _ _ _ _ := LocksHeld.keeps
  leaves _ _ _ c _ hInv hReturns :=
    LocksHeld.update hInv (fun m => hReturns ▸ LockPosition.begins_holds c m) fun _ => rfl

theorem lock_typed_built (k : Kernel) (clock : Instant) :
    (lockTypestate Thread k).Typed (fun _ => .free) (KernelConfig.built Thread k clock) := by
  apply Typestate.typed_start (T := lockTypestate Thread k)
  intro m t
  simp [KernelInner.new, LockPosition.holds]

section Deadlock

variable {k : Kernel} {c c' : KernelConfig Thread} {t u : Thread} {m : KernelMutex}
  {pos : Thread → LockPosition} {label : Label KernelSig Thread KernelCall}

/-- The thread holds the mutex. -/
def Holds (c : KernelConfig Thread) (t : Thread) (m : KernelMutex) : Prop :=
  c.world.shared.holder m = some t

/-- The next thing the thread does is lock the mutex. -/
def WaitsFor (c : KernelConfig Thread) (t : Thread) (m : KernelMutex) : Prop :=
  ∃ call next, c.threads t = .running call (.perform (.lock m) next)

/-- Some threads each hold a mutex while waiting for one that another of them holds. -/
def Deadlocked (c : KernelConfig Thread) : Prop :=
  ∃ group : Set Thread, group.Nonempty ∧ ∀ t ∈ group, (∃ m, Holds c t m) ∧
    ∃ m, WaitsFor c t m ∧ ∃ u ∈ group, u ≠ t ∧ Holds c u m

/-- The two steps that cross the lock orders: a boot or load callback returns `Ok`
while another thread holds bookkeeping and waits for the subsystems, or a
snapshot takes bookkeeping while another thread holds the subsystems and waits
to record a success. -/
inductive Inverts (c : KernelConfig Thread) : Label KernelSig Thread KernelCall → Prop where
  | recording {t u : Thread} {b : Callback} {s : Subsystem} (hForward : b ≠ .shutdown)
      (hOther : u ≠ t) (hHolds : Holds c u .bookkeeping) (hWaits : WaitsFor c u .subsystems) :
      Inverts c (.op t (.finishCallback b s) CallbackOutcome.ok)
  | observing {t u : Thread} {call : KernelCall} {rest : Program KernelSig KernelReturn}
      (hRun : c.threads t = .running call rest) (hObserves : call.observes = true)
      (hOther : u ≠ t) (hHolds : Holds c u .subsystems) (hWaits : WaitsFor c u .bookkeeping) :
      Inverts c (.op t (.lock .bookkeeping) ())

theorem LockPosition.permits_recording {o : KernelOp}
    (h : lockProtocol.Permits LockPosition.recording o) : o = .lock .bookkeeping := by
  obtain ⟨a, hSome⟩ := h
  cases o with
  | lock m => cases m with
    | bookkeeping => rfl
    | subsystems => cases hSome
  | unlock m => cases m <;> cases hSome
  | _ => cases hSome

theorem LockPosition.permits_observing {o : KernelOp}
    (h : lockProtocol.Permits LockPosition.observing o) : o = .lock .subsystems := by
  obtain ⟨a, hSome⟩ := h
  cases o with
  | lock m => cases m with
    | subsystems => rfl
    | bookkeeping => cases hSome
  | unlock m => cases m <;> cases hSome
  | _ => cases hSome

/-- A thread at neither end of a call is about to perform an operation. -/
theorem lock_perform (h : (lockTypestate Thread k).Typed pos c) (hRest : pos t ≠ .free)
    (hWatching : pos t ≠ .watching) :
    ∃ call o next, c.threads t = .running call (.perform o next) ∧
      lockProtocol.Permits (pos t) o := by
  cases hThread : c.threads t with
  | idle => exact absurd (h.idle hThread) hRest
  | running call program =>
      cases program with
      | done r =>
          have hEnd : pos t = LockPosition.begins call := h.returned hThread
          unfold LockPosition.begins at hEnd
          split at hEnd
          · exact absurd hEnd hWatching
          · exact absurd hEnd hRest
      | perform o next => exact ⟨call, o, next, rfl, h.permits hThread⟩

theorem recording_iff (h : (lockTypestate Thread k).Typed pos c) :
    Holds c t .subsystems ∧ WaitsFor c t .bookkeeping ↔ pos t = .recording := by
  constructor
  · rintro ⟨hHolds, call, next, hRun⟩
    have hHeld := (h.1 .subsystems t).mp hHolds
    obtain ⟨a, hSome⟩ := h.permits hRun
    revert hHeld hSome
    simp only [lockTypestate, lockProtocol, LockPosition.next]
    cases pos t <;> simp [LockPosition.holds, LockPosition.locks]
  · intro hPos
    obtain ⟨call, o, next, hRun, hPermits⟩ := lock_perform h (fun hFree => nomatch hPos.symm.trans hFree)
      fun hWatching => nomatch hPos.symm.trans hWatching
    obtain rfl := LockPosition.permits_recording (hPos ▸ hPermits)
    exact ⟨(h.1 .subsystems t).mpr (hPos ▸ rfl), call, next, hRun⟩

theorem observing_iff (h : (lockTypestate Thread k).Typed pos c) :
    Holds c t .bookkeeping ∧ WaitsFor c t .subsystems ↔ pos t = .observing := by
  constructor
  · rintro ⟨hHolds, call, next, hRun⟩
    have hHeld := (h.1 .bookkeeping t).mp hHolds
    obtain ⟨a, hSome⟩ := h.permits hRun
    revert hHeld hSome
    simp only [lockTypestate, lockProtocol, LockPosition.next]
    cases pos t <;> simp [LockPosition.holds, LockPosition.locks]
  · intro hPos
    obtain ⟨call, o, next, hRun, hPermits⟩ := lock_perform h (fun hFree => nomatch hPos.symm.trans hFree)
      fun hWatching => nomatch hPos.symm.trans hWatching
    obtain rfl := LockPosition.permits_observing (hPos ▸ hPermits)
    exact ⟨(h.1 .bookkeeping t).mpr (hPos ▸ rfl), call, next, hRun⟩

omit [DecidableEq Thread] in
theorem Holds.unique (ht : Holds c t m) (hu : Holds c u m) : u = t :=
  Option.some.inj (hu.symm.trans ht)

/-- With two mutexes a deadlock is one thread recording against one observing. -/
theorem deadlocked_iff (h : (lockTypestate Thread k).Typed pos c) :
    Deadlocked c ↔ ∃ t u, pos t = .recording ∧ pos u = .observing := by
  constructor
  · rintro ⟨group, ⟨t, hT⟩, hGroup⟩
    obtain ⟨⟨held, hHeld⟩, wanted, hWants, u, hU, hOther, hTaken⟩ := hGroup t hT
    obtain ⟨-, wanted', hWants', v, -, hOther', hTaken'⟩ := hGroup u hU
    have hDiffer : held ≠ wanted := fun hSame => hOther (hHeld.unique (hSame ▸ hTaken))
    have hDiffer' : wanted ≠ wanted' := fun hSame => hOther' (hTaken.unique (hSame ▸ hTaken'))
    cases held <;> cases wanted <;> cases wanted' <;>
      first | exact absurd rfl hDiffer | exact absurd rfl hDiffer' | skip
    · exact ⟨u, t, (recording_iff h).mp ⟨hTaken, hWants'⟩, (observing_iff h).mp ⟨hHeld, hWants⟩⟩
    · exact ⟨t, u, (recording_iff h).mp ⟨hHeld, hWants⟩, (observing_iff h).mp ⟨hTaken, hWants'⟩⟩
  · rintro ⟨t, u, hT, hU⟩
    have hne : t ≠ u := by
      rintro rfl
      rw [hT] at hU
      cases hU
    obtain ⟨hHeld, hWants⟩ := (recording_iff h).mpr hT
    obtain ⟨hHeld', hWants'⟩ := (observing_iff h).mpr hU
    refine ⟨{t, u}, ⟨t, by simp⟩, ?_⟩
    rintro x (rfl | rfl)
    · exact ⟨⟨_, hHeld⟩, _, hWants, u, by simp, hne.symm, hHeld'⟩
    · exact ⟨⟨_, hHeld'⟩, _, hWants', t, by simp, hne, hHeld⟩

omit [DecidableEq Thread] in
/-- A thread starts recording by finishing a callback with `Ok`. -/
theorem LockPosition.next_recording {p : LockPosition} {o : KernelOp} {a : KernelSig.Ans o}
    (h : p.next o a = some .recording) :
    ∃ b s, b ≠ .shutdown ∧ (Label.op t o a : Label KernelSig Thread KernelCall) =
      .op t (.finishCallback b s) CallbackOutcome.ok := by
  cases o with
  | finishCallback b s =>
      cases p <;> cases b <;> cases a <;> cases h <;> exact ⟨_, s, by decide, rfl⟩
  | lock m => cases p <;> cases m <;> cases h
  | unlock m => cases p <;> cases m <;> cases h
  | _ => cases p <;> cases h

omit [DecidableEq Thread] in
/-- A thread starts observing by taking bookkeeping in a snapshot. -/
theorem LockPosition.next_observing {p : LockPosition} {o : KernelOp} {a : KernelSig.Ans o}
    (h : p.next o a = some .observing) :
    p.observes = true ∧ (Label.op t o a : Label KernelSig Thread KernelCall) =
      .op t (.lock .bookkeeping) () := by
  cases o with
  | finishCallback b s => cases p <;> cases b <;> cases a <;> cases h
  | lock m => cases p <;> cases m <;> cases h; exact ⟨rfl, rfl⟩
  | unlock m => cases p <;> cases m <;> cases h
  | _ => cases p <;> cases h

/-- An inverting step puts two threads into a deadlock. -/
theorem Inverts.deadlocked (h : (lockTypestate Thread k).Typed pos c)
    (hStep : KernelStep Thread k c label c') (hInverts : Inverts c label) : Deadlocked c' := by
  obtain ⟨pos', hMoves, hTyped⟩ := h.step hStep
  rw [deadlocked_iff hTyped]
  cases hInverts with
  | @recording t u b s hForward hOther hHolds hWaits =>
      obtain ⟨p, hNext, rfl⟩ := hMoves
      have hOne : (pos t).finishes b .ok = some p := hNext
      refine ⟨t, u, ?_, ?_⟩
      · rw [Function.update_self]
        revert hOne
        cases pos t <;> cases b <;> intro hOne <;> cases hOne <;>
          first | exact rfl | exact absurd rfl hForward
      · rw [Function.update_of_ne hOther]
        exact (observing_iff h).mp ⟨hHolds, hWaits⟩
  | @observing t u call rest hRun hObserves hOther hHolds hWaits =>
      obtain ⟨p, hNext, rfl⟩ := hMoves
      have hWithin : (pos t).observes = true := (h.running hRun).1.trans hObserves
      have hOne : (pos t).locks .bookkeeping = some p := hNext
      refine ⟨u, t, ?_, ?_⟩
      · rw [Function.update_of_ne hOther]
        exact (recording_iff h).mp ⟨hHolds, hWaits⟩
      · have hPos : pos t = .watching := by
          revert hOne hWithin
          cases pos t <;> simp [LockPosition.locks, LockPosition.observes]
        rw [hPos] at hOne
        rw [Function.update_self]
        exact (Option.some.inj hOne).symm

/-- Only an inverting step makes a deadlock. -/
theorem Deadlocked.inverts (h : (lockTypestate Thread k).Typed pos c) (hGood : ¬ Deadlocked c)
    (hStep : KernelStep Thread k c label c') (hBad : Deadlocked c') : Inverts c label := by
  obtain ⟨pos', hMoves, hTyped⟩ := h.step hStep
  obtain ⟨t, u, hT, hU⟩ := (deadlocked_iff hTyped).mp hBad
  rw [deadlocked_iff h] at hGood
  -- a thread that a step moves elsewhere was in the same position before
  have hMoved : ∀ v p, pos' = Function.update pos v p → p ≠ .recording → p ≠ .observing →
      False := by
    rintro v p rfl hRecording hObserving
    refine hGood ⟨t, u, ?_, ?_⟩
    · rcases eq_or_ne t v with rfl | hne
      · exact absurd (by simpa using hT) hRecording
      · simpa [hne] using hT
    · rcases eq_or_ne u v with rfl | hne
      · exact absurd (by simpa using hU) hObserving
      · simpa [hne] using hU
  cases hStep with
  | @call v call hIdle =>
      have hStart := LockPosition.begins_ne call
      exact (hMoved v _ hMoves hStart.1 hStart.2).elim
  | @ret v call r hRun =>
      exact (hMoved v LockPosition.free hMoves (by decide) (by decide)).elim
  | @op v call o next a shared hRun hExec =>
      obtain ⟨p, hNext, rfl⟩ := hMoves
      rcases eq_or_ne v t with rfl | hNotT
      · obtain rfl : p = .recording := by simpa using hT
        have hOther : u ≠ v := by
          rintro rfl
          rw [hT] at hU
          cases hU
        obtain ⟨b, s, hForward, hLabel⟩ := LockPosition.next_recording (t := v) hNext
        rw [hLabel]
        have hObserving := (observing_iff h).mpr (by simpa [hOther] using hU)
        exact .recording hForward hOther hObserving.1 hObserving.2
      · have hRecording := (recording_iff h).mpr (by simpa [hNotT.symm] using hT)
        rcases eq_or_ne v u with rfl | hNotU
        · obtain rfl : p = .observing := by simpa using hU
          obtain ⟨hObserves, hLabel⟩ := LockPosition.next_observing (t := v) hNext
          rw [hLabel]
          have hCall : call.observes = true := (h.running hRun).1.symm.trans hObserves
          exact .observing hRun hCall hNotT.symm hRecording.1 hRecording.2
        · exact absurd ⟨t, u, by simpa [hNotT.symm] using hT, by simpa [hNotU.symm] using hU⟩ hGood

/-- The runs of a kernel that never deadlock are exactly the runs without an
inverting step. -/
theorem deadlock_free_iff_no_inversion (k : Kernel) (clock : Instant)
    (labels : List (Label KernelSig Thread KernelCall)) (finish : KernelConfig Thread) :
    Runs (Within (KernelStep Thread k) fun c => ¬ Deadlocked c)
        (KernelConfig.built Thread k clock) labels finish ↔
      Runs (Restrict (KernelStep Thread k) fun c label => ¬ Inverts c label)
        (KernelConfig.built Thread k clock) labels finish := by
  refine runs_within_iff_restrict (fun c => ¬ Deadlocked c)
    (fun c => ∃ pos, (lockTypestate Thread k).Typed pos c) ?_ ⟨_, lock_typed_built k clock⟩ ?_ ?_
  · rw [deadlocked_iff (lock_typed_built k clock)]
    rintro ⟨t, u, hT, -⟩
    cases hT
  · rintro c label c' ⟨pos, h⟩ hStep
    obtain ⟨pos', -, hTyped⟩ := h.step hStep
    exact ⟨pos', hTyped⟩
  · rintro c label c' ⟨pos, h⟩ hGood hStep
    exact not_congr ⟨fun hBad => hBad.inverts h hGood hStep, fun hBad => hBad.deadlocked h hStep⟩

end Deadlock

/-- One `boot` or `run` at most, and otherwise snapshots. -/
def OneStartAmongSnapshots (labels : List (Label KernelSig Thread KernelCall)) : Prop :=
  (labels.filterMap Label.begun).countP KernelCall.starts ≤ 1 ∧
    ∀ call ∈ labels.filterMap Label.begun, call.starts = true ∨ call.observes = true

/-- Thread `true` boots a kernel; while the first boot callback runs, thread `false`
takes bookkeeping for a snapshot, and the callback returns `Ok`. -/
theorem boot_deadlocks_with_snapshot :
    ¬ ∀ (b : KernelBuilder) (k : Kernel), b.build = .ok k → ∀ clock labels (c : KernelConfig Bool),
      Runs (KernelStep Bool k) (KernelConfig.built Bool k clock) labels c →
      OneStartAmongSnapshots labels → ¬ Deadlocked c := by
  intro hClaim
  obtain ⟨k, hBuild, c, hSchedule, hHolds, hWaits, hHolds', hWaits'⟩ :
      ∃ k, (KernelBuilder.new "service").build = .ok k ∧ ∃ c : KernelConfig Bool,
        schedule (kernelMachine Bool) (kernelBody k) Environment.calm.answer
          (KernelConfig.built Bool k 0)
          [.call true .boot, .go true, .go true, .go true, .go true, .go true, .go true,
            .call false .snapshot, .go false, .go false, .go false, .go true] = some c ∧
        Holds c true .subsystems ∧ WaitsFor c true .bookkeeping ∧
        Holds c false .bookkeeping ∧ WaitsFor c false .subsystems := by
    refine ⟨_, rfl, _, rfl, ?_⟩
    exact ⟨rfl, ⟨_, _, rfl⟩, rfl, ⟨_, _, rfl⟩⟩
  obtain ⟨labels, hRuns, hCalls⟩ := schedule_runs hSchedule
  refine hClaim _ k hBuild 0 labels c hRuns ?_ ?_
  · rw [OneStartAmongSnapshots, hCalls]
    exact ⟨by decide, by decide⟩
  · refine ⟨Set.univ, ⟨true, trivial⟩, ?_⟩
    rintro (_ | _) -
    · exact ⟨⟨_, hHolds'⟩, _, hWaits', true, trivial, by decide, hHolds⟩
    · exact ⟨⟨_, hHolds⟩, _, hWaits, false, trivial, by decide, hHolds'⟩

end ServiceKernel
