import ServiceKernel.Kernel.Core
import ServiceKernel.Semantics.Chronicle
import ServiceKernel.Shutdown.Drain

/-! The three places where a deadline is computed as a reading of the clock plus a
duration that the consumer chose. -/
namespace ServiceKernel

open Interleaving

variable {now : Instant} {duration : Duration}

/-- A shutdown that marks the coordinator completed and then reads the clock goes on to
take the hooks. -/
def ShutdownGoesOn (now : Instant) (grace : Duration) : Prop :=
  ∀ startedAt rest report,
    (coordinatorShutdown grace).Path
      (⟨.now, startedAt⟩ :: ⟨.markCompleted, false⟩ :: ⟨.stdNow, now⟩ :: rest) report →
    ∃ hooks, (⟨.takeHooks, hooks⟩ : Deed CoordinatorSig) ∈ rest

/-- A wait that begins at the reading gets to wait. -/
def WaitGoesOn (now : Instant) (timeout : Duration) : Prop :=
  ∀ rest arrived, (waitTimeout timeout).Path (⟨.now, now⟩ :: rest) arrived → arrived.isSome

/-- A drain that begins at the reading returns, whatever is in its set. -/
def DrainGoesOn (now : Instant) (grace : Duration) : Prop :=
  ∀ (T : Type) (set : List (JoinEnd T)) (ended : Instant) (expiry : Nat),
    (drain set grace now ended expiry).isSome

/-- No addition of the duration to the reading panics. -/
structure DeadlinesDefined (now : Instant) (duration : Duration) : Prop where
  shutdown : ShutdownGoesOn now duration
  wait : WaitGoesOn now duration
  drain : DrainGoesOn now duration

theorem shutdownGoesOn_iff : ShutdownGoesOn now duration ↔ (now.checkedAdd duration).isSome := by
  constructor
  · intro h
    cases hSum : now.checkedAdd duration with
    | some deadline => rfl
    | none =>
        have hPath : (coordinatorShutdown duration).Path
            [⟨.now, 0⟩, ⟨.markCompleted, false⟩, ⟨.stdNow, now⟩] none := by
          apply Program.Path.perform
          apply Program.Path.perform
          apply Program.Path.perform
          simp only [Program.bind, hSum]
          exact .done none
        obtain ⟨hooks, hMem⟩ := h 0 [] none hPath
        cases hMem
  · intro hSome startedAt rest report hPath
    obtain ⟨deadline, hSum⟩ := Option.isSome_iff_exists.mp hSome
    cases hPath with
    | perform hMarked =>
        cases hMarked with
        | perform hRead =>
            cases hRead with
            | perform hSequence =>
                simp only [Program.bind, hSum] at hSequence
                -- The sequence announces itself and signals the token before it takes the hooks.
                obtain ⟨_, _, rfl, hAnnounced⟩ := Program.path_perform_iff.mp hSequence
                obtain ⟨_, _, rfl, hSignalled⟩ := Program.path_perform_iff.mp hAnnounced
                obtain ⟨hooks, _, rfl, _⟩ := Program.path_perform_iff.mp hSignalled
                exact ⟨hooks, by simp⟩

theorem waitGoesOn_iff : WaitGoesOn now duration ↔ (now.checkedAdd duration).isSome := by
  constructor
  · intro h
    cases hSum : now.checkedAdd duration with
    | some deadline => rfl
    | none =>
        have hPath : (waitTimeout duration).Path [⟨.now, now⟩] none := by
          apply Program.Path.perform
          simp only [Program.bind, hSum]
          exact .done none
        exact absurd (h [] none hPath) (by simp)
  · intro hSome rest arrived hPath
    obtain ⟨deadline, hSum⟩ := Option.isSome_iff_exists.mp hSome
    cases hPath with
    | perform hWait =>
        simp only [Program.bind, hSum] at hWait
        obtain ⟨answer, _, _, hEnd⟩ := Program.path_perform_iff.mp hWait
        obtain ⟨-, rfl⟩ := Program.path_done_iff.mp hEnd
        rfl

theorem drainGoesOn_iff : DrainGoesOn now duration ↔ (now.checkedAdd duration).isSome := by
  constructor
  · intro h
    have hOne := h Unit [.cancelled] now 0
    rw [drain_isSome_iff] at hOne
    exact hOne.resolve_left (List.cons_ne_nil _ _)
  · intro hSome T set ended expiry
    exact drain_isSome_iff.mpr (Or.inr hSome)

/-- The deadlines of a duration are defined at exactly the readings whose sum with it is
representable. -/
theorem deadlines_defined_iff (now : Instant) (duration : Duration) :
    DeadlinesDefined now duration ↔ (now.checkedAdd duration).isSome := by
  constructor
  · exact fun h => drainGoesOn_iff.mp h.drain
  · exact fun h => ⟨shutdownGoesOn_iff.mpr h, waitGoesOn_iff.mpr h, drainGoesOn_iff.mpr h⟩

/-- The longest duration has no deadline, even at the origin of the clock. -/
theorem longest_undefined : ¬ ∀ now duration, DeadlinesDefined now duration := by
  intro hClaim
  have h := drainGoesOn_iff.mp (hClaim 0 (.new 18446744073709551615 999999999)).drain
  revert h
  decide

end ServiceKernel
