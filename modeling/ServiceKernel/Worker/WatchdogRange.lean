import ServiceKernel.Worker.Watchdog

/-! The whole report of a check against exact integer arithmetic. An interval of more
than 292 years turns negative in the cast, and its worker is then reported early. -/
namespace ServiceKernel

section Lists

variable {α β : Type} {f g : α → Option β}

theorem length_filterMap_le {l : List α} (h : ∀ a ∈ l, g a = none ∨ f a = g a) :
    (l.filterMap g).length ≤ (l.filterMap f).length := by
  induction l with
  | nil => exact Nat.le_refl _
  | cons a rest ih =>
      have hRest := ih fun b hb => h b (List.mem_cons_of_mem a hb)
      rcases h a List.mem_cons_self with hNone | hSame
      · rw [List.filterMap_cons_none hNone]
        cases hHead : f a with
        | none => rwa [List.filterMap_cons_none hHead]
        | some b =>
            rw [List.filterMap_cons_some hHead]
            exact Nat.le_succ_of_le hRest
      · cases hHead : g a with
        | none => rwa [List.filterMap_cons_none hHead, List.filterMap_cons_none (hSame.trans hHead)]
        | some b =>
            rw [List.filterMap_cons_some hHead, List.filterMap_cons_some (hSame.trans hHead)]
            exact Nat.succ_le_succ hRest

/-- A report that adds entries to another is equal to it only if it adds none. -/
theorem filterMap_eq_iff {l : List α} (h : ∀ a ∈ l, g a = none ∨ f a = g a) :
    l.filterMap f = l.filterMap g ↔ ∀ a ∈ l, f a = g a := by
  induction l with
  | nil => simp
  | cons a rest ih =>
      have hTail : ∀ b ∈ rest, g b = none ∨ f b = g b :=
        fun b hb => h b (List.mem_cons_of_mem a hb)
      rw [List.forall_mem_cons, ← ih hTail]
      by_cases hSame : f a = g a
      · cases hHead : g a with
        | none =>
            rw [List.filterMap_cons_none hHead, List.filterMap_cons_none (hSame.trans hHead)]
            simp [hSame.trans hHead]
        | some b =>
            rw [List.filterMap_cons_some hHead, List.filterMap_cons_some (hSame.trans hHead)]
            simp [hSame.trans hHead]
      · have hNone : g a = none := (h a List.mem_cons_self).resolve_right hSame
        obtain ⟨b, hSome⟩ := Option.ne_none_iff_exists'.mp (hNone ▸ hSame)
        -- The extra entry makes the list longer than the other can be.
        have hLength := length_filterMap_le hTail
        rw [List.filterMap_cons_none hNone, List.filterMap_cons_some hSome]
        constructor
        · intro hEq
          have := congrArg List.length hEq
          simp only [List.length_cons] at this
          omega
        · exact fun hBoth => absurd hBoth.1 hSame

end Lists

/-- What a worker is reported with: its identity and how long it was silent. -/
abbrev SilenceReport := WorkerId × String × Int

def WatchdogTimeout.report (timeout : WatchdogTimeout) : SilenceReport :=
  (timeout.id, timeout.name, timeout.silentFor.nanos)

namespace Watchdog

/-- What one target should be reported with, in exact integers. -/
def exactTarget (now : Int) (target : WatchdogTarget) : Option SilenceReport :=
  if 0 < target.lastHeartbeatNanos ∧
      2 * (target.heartbeatInterval.nanos : Int) < now - target.lastHeartbeatNanos then
    some (target.id, target.name, now - target.lastHeartbeatNanos)
  else none

/-- What `check` is for: the targets silent for over twice their interval, in target order
and each once, with the exact silence. -/
def ExactCheck (targets : List WatchdogTarget) (now : Int) : Prop :=
  (check targets now).map WatchdogTimeout.report = targets.filterMap (exactTarget now)

variable {targets : List WatchdogTarget} {target : WatchdogTarget} {now : Int}

/-- A silence between a heartbeat and a reading fits the `u64` it is cast to. -/
theorem silence_exact (hNow : now ≤ i64Max) (hBeat : 0 < target.lastHeartbeatNanos)
    (hSilent : 0 ≤ now - target.lastHeartbeatNanos) :
    ((Duration.fromNanos (u64FromNanos (now - target.lastHeartbeatNanos))).nanos : Int) =
      now - target.lastHeartbeatNanos := by
  simp only [i64Max] at hNow
  have hNotNeg : ¬ now - target.lastHeartbeatNanos < 0 := by omega
  have hFits : ¬ now - target.lastHeartbeatNanos > 18446744073709551615 := by omega
  rw [Duration.fromNanos_nanos, u64FromNanos, if_neg hNotNeg, if_neg hFits]
  rw [UInt64.toNat_ofNat', Nat.mod_eq_of_lt (by omega)]
  omega

/-- A target that should be reported has an interval that fits an `i64`. -/
theorem fits_of_exact (hNow : now ≤ i64Max) (hBeat : 0 < target.lastHeartbeatNanos)
    (hSilent : 2 * (target.heartbeatInterval.nanos : Int) < now - target.lastHeartbeatNanos) :
    target.heartbeatInterval.nanos < 2 ^ 63 := by
  simp only [i64Max] at hNow
  omega

/-- A target that should be reported is, and as it should be. -/
theorem checkTarget_of_exact (target : WatchdogTarget) (hNow : now ≤ i64Max) :
    exactTarget now target = none ∨
      (checkTarget now target).map WatchdogTimeout.report = exactTarget now target := by
  by_cases hExact : 0 < target.lastHeartbeatNanos ∧
      2 * (target.heartbeatInterval.nanos : Int) < now - target.lastHeartbeatNanos
  · have hFits := fits_of_exact hNow hExact.1 hExact.2
    have hStale : Stale target.heartbeatInterval target.lastHeartbeatNanos now := by
      refine ⟨hExact.1, ?_⟩
      rw [threshold_of_lt hFits]
      exact hExact.2
    have hReport := checkTarget_eq_some_iff.mpr ⟨hStale, rfl⟩
    have hSilence := silence_exact hNow hExact.1 (by omega)
    apply Or.inr
    rw [exactTarget, if_pos hExact, hReport]
    simp only [Option.map_some, WatchdogTimeout.report, hSilence]
  · exact Or.inl (if_neg hExact)

/-- A target is reported as it should be unless its interval is cut short and it has been
silent for over twice what is left of it. -/
theorem checkTarget_exact_iff (hNow : now ≤ i64Max) :
    (checkTarget now target).map WatchdogTimeout.report = exactTarget now target ↔
      target.heartbeatInterval.nanos < 2 ^ 63 ∨
        ¬ Stale target.heartbeatInterval target.lastHeartbeatNanos now := by
  by_cases hStale : Stale target.heartbeatInterval target.lastHeartbeatNanos now
  · have hReport := checkTarget_eq_some_iff.mpr ⟨hStale, rfl⟩
    have hSilent := silent_iff_of_stale hNow hStale
    simp only [hStale, not_true, or_false]
    rw [← hSilent]
    constructor
    · intro hSame
      by_cases hExact : 0 < target.lastHeartbeatNanos ∧
          2 * (target.heartbeatInterval.nanos : Int) < now - target.lastHeartbeatNanos
      · exact hExact.2
      · rw [hReport, exactTarget, if_neg hExact] at hSame
        cases hSame
    · intro hSilence
      apply (checkTarget_of_exact target hNow).resolve_left
      rw [exactTarget, if_pos ⟨hStale.1, hSilence⟩]
      exact Option.some_ne_none _
  · simp only [hStale, not_false_eq_true, or_true, iff_true]
    have hSilent : checkTarget now target = none := by
      cases hReport : checkTarget now target with
      | none => rfl
      | some timeout => exact absurd (checkTarget_eq_some_iff.mp hReport).1 hStale
    rcases checkTarget_of_exact target hNow with hNone | hSame
    · rw [hSilent, hNone]
      rfl
    · exact hSame

/-- A check is exact if and only if no worker whose interval does not fit an `i64` has
been silent for over twice its interval as it is cast. -/
theorem check_exact_iff (targets : List WatchdogTarget) (hNow : now ≤ i64Max) :
    ExactCheck targets now ↔ ∀ target ∈ targets, target.heartbeatInterval.nanos < 2 ^ 63 ∨
      ¬ (0 < target.lastHeartbeatNanos ∧
        2 * asI64 target.heartbeatInterval.nanos < now - target.lastHeartbeatNanos) := by
  have hStale (target : WatchdogTarget) :
      (0 < target.lastHeartbeatNanos ∧
        2 * asI64 target.heartbeatInterval.nanos < now - target.lastHeartbeatNanos) ↔
      Stale target.heartbeatInterval target.lastHeartbeatNanos now := by
    rw [Stale, threshold, Int.mul_comm]
  simp only [hStale, ← checkTarget_exact_iff hNow]
  rw [ExactCheck, check, List.map_filterMap]
  exact filterMap_eq_iff fun target _ => checkTarget_of_exact target hNow

theorem check_exact_second :
    ExactCheck [⟨1, "api", 5, .fromSecs 1⟩] 3000000006 ↔
      ∀ target ∈ [(⟨1, "api", 5, .fromSecs 1⟩ : WatchdogTarget)],
        target.heartbeatInterval.nanos < 2 ^ 63 ∨
        ¬ (0 < target.lastHeartbeatNanos ∧
          2 * asI64 target.heartbeatInterval.nanos < 3000000006 - target.lastHeartbeatNanos) :=
  check_exact_iff _ (by decide)

/-- A worker with an interval of 2^63 ns is reported at its own heartbeat. -/
theorem check_not_exact : ¬ ∀ (targets : List WatchdogTarget) (now : Int),
    (∀ target ∈ targets, -9223372036854775808 ≤ target.lastHeartbeatNanos ∧
      target.lastHeartbeatNanos ≤ i64Max) → -9223372036854775808 ≤ now → now ≤ i64Max →
    ExactCheck targets now := by
  intro hClaim
  have h := hClaim [⟨1, "api", 1, .new 9223372036 854775808⟩] 1
    (by simp [i64Max]) (by decide) (by decide)
  revert h
  unfold ExactCheck
  decide

end Watchdog

end ServiceKernel
