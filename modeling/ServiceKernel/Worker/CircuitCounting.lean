import Mathlib.Algebra.Order.BigOperators.Group.List
import Mathlib.Algebra.Order.Group.Nat
import ServiceKernel.Worker.CircuitRecovery

/-! Failures recorded by several threads at once. The first of them resets the count in a
step of its own, after which increments of others may already have been made. -/
namespace ServiceKernel

open Interleaving Execution

section Deeds

/-- What a whole `record_failure` performs. -/
inductive FailureDeeds (policy : CircuitPolicy) : List (Deed CircuitSig) → Prop where
  | refused (now : Instant) :
      FailureDeeds policy [⟨.now, now⟩, ⟨.loadState, CircuitState.opened⟩]
  | retried (now : Instant) :
      FailureDeeds policy [⟨.now, now⟩, ⟨.loadState, CircuitState.halfOpen⟩,
        ⟨.storeState .opened, ()⟩, ⟨.stampOpened now, ()⟩]
  | counted (now : Instant) (inWindow : Bool) (failures : UInt32) :
      FailureDeeds policy ([⟨.now, now⟩, ⟨.loadState, CircuitState.closed⟩,
        ⟨.touchFailure now, inWindow⟩] ++ (if inWindow then [] else [⟨.resetFailures, ()⟩]) ++
        [⟨.addFailure, failures⟩] ++ if policy.failureThreshold ≤ failures + 1 then
          [⟨.storeState .opened, ()⟩, ⟨.stampOpened now, ()⟩] else [])

variable {policy : CircuitPolicy} {now : Instant} {deeds : List (Deed CircuitSig)} {r : CircuitState}

theorem path_trip (h : (CircuitSteps.trip now).Path deeds r) :
    deeds = [⟨.storeState .opened, ()⟩, ⟨.stampOpened now, ()⟩] := by
  obtain ⟨_, _, rfl, hStamp⟩ := Program.path_perform_iff.mp h
  obtain ⟨_, _, rfl, hEnd⟩ := Program.path_perform_iff.mp hStamp
  obtain ⟨rfl, -⟩ := Program.path_done_iff.mp hEnd
  rfl

theorem path_count (h : (CircuitSteps.count policy now).Path deeds r) : ∃ failures : UInt32,
    deeds = ⟨.addFailure, failures⟩ :: if policy.failureThreshold ≤ failures + 1 then
      [⟨.storeState .opened, ()⟩, ⟨.stampOpened now, ()⟩] else [] := by
  obtain ⟨failures, rest, rfl, hRest⟩ := Program.path_perform_iff.mp h
  refine ⟨failures, congrArg _ ?_⟩
  simp only [Program.bind] at hRest
  split_ifs at hRest ⊢ with hTrips
  · exact path_trip hRest
  · exact (Program.path_done_iff.mp hRest).1

theorem path_recordFailure (h : (CircuitSteps.recordFailure policy).Path deeds r) :
    FailureDeeds policy deeds := by
  obtain ⟨now, _, rfl, hLoad⟩ := Program.path_perform_iff.mp h
  obtain ⟨state, _, rfl, hRest⟩ := Program.path_perform_iff.mp hLoad
  cases state with
  | opened =>
      obtain ⟨rfl, -⟩ := Program.path_done_iff.mp hRest
      exact .refused now
  | halfOpen =>
      obtain rfl := path_trip hRest
      exact .retried now
  | closed =>
      obtain ⟨inWindow, _, rfl, hTouched⟩ := Program.path_perform_iff.mp hRest
      cases inWindow with
      | true =>
          obtain ⟨failures, rfl⟩ := path_count hTouched
          exact .counted now true failures
      | false =>
          obtain ⟨_, _, rfl, hCount⟩ := Program.path_perform_iff.mp hTouched
          obtain ⟨failures, rfl⟩ := path_count hCount
          exact .counted now false failures

end Deeds

section Carried

variable {Thread : Type} {s s' : Clocked CircuitBreaker} {deeds : List (Thread × Deed CircuitSig)}

/-- How often an operation was performed. -/
def timesOf (o : CircuitOp) (deeds : List (Thread × Deed CircuitSig)) : Nat :=
  deeds.countP fun d => d.2.1 = o

@[simp] theorem timesOf_append (o : CircuitOp) (deeds more : List (Thread × Deed CircuitSig)) :
    timesOf o (deeds ++ more) = timesOf o deeds + timesOf o more := by
  simp [timesOf]

theorem timesOf_eq_zero {o : CircuitOp} (h : ∀ d ∈ deeds, d.2.1 ≠ o) : timesOf o deeds = 0 := by
  apply List.countP_eq_zero.mpr
  intro d hMem
  simpa only [decide_eq_true_eq] using h d hMem

theorem carries_policy (h : (circuitMachine Thread).Carries s deeds s') :
    s'.state.policy = s.state.policy := by
  unfold Machine.Carries at h
  induction h with
  | zero => rfl
  | succ prior last ih => rw [circuit_applies last, CircuitOp.applied_policy, ih]

/-- Between resets the count is that of the increments, each of which is answered with
those before it. -/
theorem carries_failures (h : (circuitMachine Thread).Carries s deeds s')
    (hReset : ∀ d ∈ deeds, d.2.1 ≠ .resetFailures)
    (hRoom : s.state.failures.toNat + timesOf .addFailure deeds < 4294967296) :
    s'.state.failures.toNat = s.state.failures.toNat + timesOf .addFailure deeds ∧
    (∀ t (old : UInt32), (t, ⟨.addFailure, old⟩) ∈ deeds →
      old.toNat < s.state.failures.toNat + timesOf .addFailure deeds) ∧
    (0 < timesOf .addFailure deeds → ∃ t, ∃ old : UInt32, (t, ⟨.addFailure, old⟩) ∈ deeds ∧
      old.toNat + 1 = s.state.failures.toNat + timesOf .addFailure deeds) := by
  unfold Machine.Carries at h
  induction h with
  | zero =>
      refine ⟨rfl, fun t old hMem => (by cases hMem), fun hSome => ?_⟩
      exact absurd hSome (Nat.lt_irrefl 0)
  | @succ middle s' deeds d prior last ih =>
      obtain ⟨t, o, a⟩ := d
      rw [timesOf_append] at hRoom ⊢
      obtain ⟨hCount, hBelow, hLast⟩ := ih (fun d hMem => hReset d (List.mem_append_left _ hMem))
        (by omega)
      have hApplies := congrArg CircuitBreaker.failures (circuit_applies last)
      by_cases hAdd : o = .addFailure
      · subst hAdd
        have hOld : a = middle.state.failures := circuit_added last
        have hOne : timesOf .addFailure [(t, (⟨.addFailure, a⟩ : Deed CircuitSig))] = 1 := rfl
        rw [hOne] at hRoom ⊢
        have hNext : s'.state.failures.toNat = middle.state.failures.toNat + 1 := by
          rw [show s'.state.failures = middle.state.failures + 1 from hApplies, UInt32.toNat_add]
          exact Nat.mod_eq_of_lt (by rw [hCount]; exact hRoom)
        refine ⟨by omega, fun u old hMem => ?_, fun _ => ⟨t, a, by simp, ?_⟩⟩
        · rcases List.mem_append.mp hMem with hMem | hMem
          · have hLt := hBelow u old hMem
            omega
          · cases List.mem_singleton.mp hMem
            rw [hOld, hCount]
            omega
        · rw [hOld, hCount]
          rfl
      · have hNone : timesOf .addFailure [(t, (⟨o, a⟩ : Deed CircuitSig))] = 0 :=
          timesOf_eq_zero (by simpa using hAdd)
        have hSame : s'.state.failures = middle.state.failures := by
          rw [circuit_applies last]
          exact CircuitOp.applied_failures _ (hReset (t, ⟨o, a⟩) (by simp)) hAdd
        rw [hNone, Nat.add_zero, hSame]
        refine ⟨hCount, fun u old hMem => ?_, fun hSome => ?_⟩
        · rcases List.mem_append.mp hMem with hMem | hMem
          · exact hBelow u old hMem
          · cases List.mem_singleton.mp hMem
            exact absurd rfl hAdd
        · obtain ⟨u, old, hMem, hEq⟩ := hLast hSome
          exact ⟨u, old, List.mem_append_left _ hMem, hEq⟩

/-- The state is `Open` as soon as one call has stored it, if no call stores another. -/
theorem carries_state (h : (circuitMachine Thread).Carries s deeds s')
    (hStart : s.state.state = .closed)
    (hStores : ∀ d ∈ deeds, ∀ state, d.2.1 = .storeState state → state = .opened) :
    (s'.state.state = .closed ∧ (∀ d ∈ deeds, d.2.1 ≠ .storeState .opened) ∨
      s'.state.state = .opened ∧ ∃ d ∈ deeds, d.2.1 = .storeState .opened) ∧
    ∀ t (state : CircuitState), (t, ⟨.loadState, state⟩) ∈ deeds →
      state = .closed ∨ state = .opened ∧ ∃ d ∈ deeds, d.2.1 = .storeState .opened := by
  unfold Machine.Carries at h
  induction h with
  | zero => exact ⟨Or.inl ⟨hStart, fun d hMem => (by cases hMem)⟩, fun t state hMem => by cases hMem⟩
  | @succ middle s' deeds d prior last ih =>
      obtain ⟨t, o, a⟩ := d
      obtain ⟨hState, hLoads⟩ := ih fun d hMem => hStores d (List.mem_append_left _ hMem)
      have hApplies := congrArg CircuitBreaker.state (circuit_applies last)
      have hMore : (∃ d ∈ deeds, d.2.1 = .storeState .opened) →
          ∃ d ∈ deeds ++ [(t, (⟨o, a⟩ : Deed CircuitSig))], d.2.1 = .storeState .opened :=
        fun ⟨d, hMem, hStore⟩ => ⟨d, List.mem_append_left _ hMem, hStore⟩
      refine ⟨?_, fun u state hMem => ?_⟩
      · by_cases hStore : o = .storeState .opened
        · subst hStore
          exact Or.inr ⟨hApplies, _, List.mem_append_right _ (List.mem_singleton_self _), rfl⟩
        · have hSame : s'.state.state = middle.state.state := by
            rw [circuit_applies last]
            refine CircuitOp.applied_state _ fun state hOther => hStore (hOther.trans ?_)
            rw [hStores (t, ⟨o, a⟩) (by simp) state hOther]
          rw [hSame]
          refine hState.imp (fun ⟨hClosed, hNone⟩ => ⟨hClosed, fun d hMem => ?_⟩) fun ⟨hOpened, hSome⟩ =>
            ⟨hOpened, hMore hSome⟩
          rcases List.mem_append.mp hMem with hMem | hMem
          · exact hNone d hMem
          · cases List.mem_singleton.mp hMem
            exact hStore
      · rcases List.mem_append.mp hMem with hMem | hMem
        · exact (hLoads u state hMem).imp id fun ⟨hOpened, hSome⟩ => ⟨hOpened, hMore hSome⟩
        · cases List.mem_singleton.mp hMem
          have hLoaded : state = middle.state.state := circuit_loaded last
          exact hState.imp (fun hBoth => hLoaded.trans hBoth.1) fun ⟨hOpened, hSome⟩ =>
            ⟨hLoaded.trans hOpened, hMore hSome⟩

/-- A failure that finds no other one within the window. -/
def Deed.missed (d : Deed CircuitSig) : Bool :=
  match d with
  | ⟨.touchFailure _, inWindow⟩ => !inWindow
  | _ => false

/-- Of failures that are all near each other only the first finds no other. -/
theorem carries_missed (h : (circuitMachine Thread).Carries s deeds s')
    (hStart : s.state.lastFailureAt = none) (hClear : ∀ d ∈ deeds, d.2.1 ≠ .clearFailure)
    (hNear : ∀ d ∈ deeds, ∀ e ∈ deeds, ∀ t u, d.2.1 = .touchFailure t → e.2.1 = .touchFailure u →
      t ≤ u + s.state.policy.failureWindow.nanos) :
    deeds.countP (fun d => Deed.missed d.2) ≤ 1 ∧
    (s'.state.lastFailureAt = none → deeds.countP (fun d => Deed.missed d.2) = 0) ∧
    ∀ t, s'.state.lastFailureAt = some t → ∃ d ∈ deeds, d.2.1 = .touchFailure t := by
  unfold Machine.Carries at h
  induction h with
  | zero =>
      refine ⟨Nat.zero_le _, fun _ => rfl, fun t hSome => ?_⟩
      rw [hStart] at hSome
      cases hSome
  | @succ middle s' deeds d prior last ih =>
      obtain ⟨t, o, a⟩ := d
      obtain ⟨hOnce, hNone, hSome⟩ := ih (fun d hMem => hClear d (List.mem_append_left _ hMem))
        fun d hD e hE => hNear d (List.mem_append_left _ hD) e (List.mem_append_left _ hE)
      have hApplies : s'.state = o.applied middle.state := circuit_applies last
      rw [List.countP_append]
      by_cases hTouch : ∃ now, o = .touchFailure now
      · obtain ⟨now, rfl⟩ := hTouch
        have hAnswer : a = middle.state.inWindow now := circuit_touched last
        have hLast : s'.state.lastFailureAt = some now := congrArg CircuitBreaker.lastFailureAt hApplies
        have hThis : [(t, (⟨.touchFailure now, a⟩ : Deed CircuitSig))].countP
            (fun d => Deed.missed d.2) = if a then 0 else 1 := by
          cases a <;> rfl
        rw [hThis, hLast]
        refine ⟨?_, fun hOther => (by cases hOther), fun u hU => ⟨_, List.mem_append_right _
          (List.mem_singleton_self _), congrArg CircuitOp.touchFailure (Option.some.inj hU)⟩⟩
        cases hEarlier : middle.state.lastFailureAt with
        | none =>
            rw [hNone hEarlier]
            split_ifs <;> omega
        | some u =>
            obtain ⟨d, hMem, hU⟩ := hSome u hEarlier
            have hLe := hNear (t, ⟨.touchFailure now, a⟩) (by simp) d (by simp [hMem]) now u rfl hU
            have hIn : a = true := by
              rw [hAnswer, CircuitBreaker.inWindow, hEarlier]
              rw [← carries_policy prior] at hLe
              exact decide_eq_true (Nat.sub_le_iff_le_add'.mpr hLe)
            rw [hIn]
            simpa using hOnce
      · have hThis : [(t, (⟨o, a⟩ : Deed CircuitSig))].countP (fun d => Deed.missed d.2) = 0 := by
          cases o with
          | touchFailure now => exact absurd ⟨now, rfl⟩ hTouch
          | _ => rfl
        have hSame : s'.state.lastFailureAt = middle.state.lastFailureAt := by
          rw [hApplies]
          exact CircuitOp.applied_lastFailureAt _ (fun now hNow => hTouch ⟨now, hNow⟩)
            (hClear (t, ⟨o, a⟩) (by simp))
        rw [hThis, hSame, Nat.add_zero]
        refine ⟨hOnce, hNone, fun u hU => ?_⟩
        obtain ⟨d, hMem, hTouched⟩ := hSome u hU
        exact ⟨d, List.mem_append_left _ hMem, hTouched⟩

end Carried

section FailureDeeds

variable {policy : CircuitPolicy} {deeds : List (Deed CircuitSig)}

def Deed.adds (d : Deed CircuitSig) : Bool := d.1 = .addFailure

def Deed.resets (d : Deed CircuitSig) : Bool := d.1 = .resetFailures

namespace FailureDeeds

theorem adds_le (h : FailureDeeds policy deeds) : deeds.countP Deed.adds ≤ 1 := by
  cases h with
  | refused now => simp [Deed.adds]
  | retried now => simp [Deed.adds]
  | counted now inWindow failures => split_ifs <;> simp [Deed.adds]

/-- A call that finds the breaker closed counts its failure. -/
theorem adds_eq (h : FailureDeeds policy deeds)
    (hClosed : ∀ state : CircuitState, ⟨.loadState, state⟩ ∈ deeds → state = .closed) :
    deeds.countP Deed.adds = 1 := by
  cases h with
  | refused now => cases hClosed .opened (by simp)
  | retried now => cases hClosed .halfOpen (by simp)
  | counted now inWindow failures => split_ifs <;> simp [Deed.adds]

theorem resets_eq (h : FailureDeeds policy deeds) :
    deeds.countP Deed.resets = deeds.countP Deed.missed := by
  cases h with
  | refused now => simp [Deed.resets, Deed.missed]
  | retried now => simp [Deed.resets, Deed.missed]
  | counted now inWindow failures =>
      cases inWindow <;> simp only [Bool.false_eq_true, if_true, if_false] <;> split_ifs <;>
        simp [Deed.resets, Deed.missed]

theorem followed (h : FailureDeeds policy deeds) :
    Followed (fun d => d.1 = .resetFailures) (fun d => d.1 = .addFailure) deeds := by
  cases h with
  | refused now => exact ⟨nofun, nofun, trivial⟩
  | retried now => exact ⟨nofun, nofun, nofun, nofun, trivial⟩
  | counted now inWindow failures =>
      split_ifs
      · exact ⟨nofun, nofun, nofun, nofun, nofun, nofun, trivial⟩
      · exact ⟨nofun, nofun, nofun, nofun, trivial⟩
      · exact ⟨nofun, nofun, nofun, fun _ => ⟨_, .head _, rfl⟩, nofun, nofun, nofun, trivial⟩
      · exact ⟨nofun, nofun, nofun, fun _ => ⟨_, .head _, rfl⟩, nofun, trivial⟩

theorem reads (h : FailureDeeds policy deeds) :
    ∀ d ∈ deeds, ∀ t, d.1 = .touchFailure t → ⟨.now, t⟩ ∈ deeds := by
  cases h with
  | refused now => simp
  | retried now => simp
  | counted now inWindow failures => split_ifs <;> simp

theorem stores (h : FailureDeeds policy deeds) :
    ∀ d ∈ deeds, d.1 ≠ .clearFailure ∧ ∀ state, d.1 = .storeState state → state = .opened := by
  cases h with
  | refused now => simp
  | retried now => simp
  | counted now inWindow failures => split_ifs <;> simp

/-- A call opens the breaker in a trial, or at the threshold. -/
theorem store_from (h : FailureDeeds policy deeds) : ∀ d ∈ deeds, d.1 = .storeState .opened →
    ⟨.loadState, CircuitState.halfOpen⟩ ∈ deeds ∨
      ∃ old : UInt32, ⟨.addFailure, old⟩ ∈ deeds ∧ policy.failureThreshold ≤ old + 1 := by
  cases h with
  | refused now => simp
  | retried now => simp
  | counted now inWindow failures => split_ifs with hIn hTrips hTrips <;> simp_all

theorem trips (h : FailureDeeds policy deeds) : ∀ old : UInt32, ⟨.addFailure, old⟩ ∈ deeds →
    policy.failureThreshold ≤ old + 1 → ⟨.storeState .opened, ()⟩ ∈ deeds := by
  cases h with
  | refused now => simp
  | retried now => simp
  | counted now inWindow failures => split_ifs with hIn hTrips hTrips <;> simp_all

end FailureDeeds

end FailureDeeds

section Counting

variable {Thread : Type} [DecidableEq Thread] {policy : CircuitPolicy} {clock : Instant}
  {history : List (Entry CircuitSig Thread CircuitMethod CircuitState)} {c : CircuitConfig Thread}

/-- The clock readings of a run. -/
def circuitReadings (history : List (Entry CircuitSig Thread CircuitMethod CircuitState)) :
    List Instant :=
  (deedsOf history).filterMap fun d => match d.2 with
    | ⟨.now, now⟩ => some now
    | _ => none

/-- No increment was made before a reset. -/
def Unerased (history : List (Entry CircuitSig Thread CircuitMethod CircuitState)) : Prop :=
  ∀ before after reset, deedsOf history = before ++ reset :: after →
    reset.2.1 = .resetFailures → ∀ d ∈ before, d.2.1 ≠ .addFailure

/-- A run of failures near each other, as many as the threshold, in which every call has
returned. -/
structure FailureRun (policy : CircuitPolicy) (clock : Instant)
    (history : List (Entry CircuitSig Thread CircuitMethod CircuitState))
    (c : CircuitConfig Thread) : Prop where
  chronicle : Chronicle (circuitMachine Thread) (CircuitMethod.body policy)
    (CircuitConfig.new Thread policy clock) history c
  quiet : c.Quiescent
  calls : ∀ call ∈ completedOf history, call.call = .recordFailure
  count : (completedOf history).length = policy.failureThreshold.toNat
  near : ∀ t ∈ circuitReadings history, ∀ u ∈ circuitReadings history,
    t ≤ u + policy.failureWindow.nanos

namespace FailureRun

variable (h : FailureRun policy clock history c)
include h

theorem chronicle' : Chronicle (circuitMachine Thread) (CircuitMethod.body policy)
    (Config.start (CircuitConfig.new Thread policy clock).world) history c := h.chronicle

theorem shape {call : Completed CircuitSig Thread CircuitMethod CircuitState}
    (hCall : call ∈ completedOf history) : FailureDeeds policy call.deeds := by
  have hPath := h.chronicle'.completed_path call hCall
  rw [h.calls call hCall] at hPath
  exact path_recordFailure hPath

theorem of_call {d : Thread × Deed CircuitSig} (hMem : d ∈ deedsOf history) :
    ∃ call ∈ completedOf history, d.2 ∈ call.deeds :=
  h.chronicle'.of_call h.quiet (t := d.1) hMem

theorem adds_eq : timesOf .addFailure (deedsOf history) =
    ((completedOf history).map fun call => call.deeds.countP Deed.adds).sum :=
  h.chronicle'.settled_count h.quiet Deed.adds

theorem adds_le : timesOf .addFailure (deedsOf history) ≤ policy.failureThreshold.toNat := by
  have hSum := List.sum_le_card_nsmul
    ((completedOf history).map fun call => call.deeds.countP Deed.adds) 1 fun n hMem => by
      obtain ⟨call, hCall, rfl⟩ := List.mem_map.mp hMem
      exact (h.shape hCall).adds_le
  rw [h.adds_eq, ← h.count]
  simpa using hSum

theorem touch_read {d : Thread × Deed CircuitSig} (hMem : d ∈ deedsOf history) {t : Instant}
    (hTouch : d.2.1 = .touchFailure t) : t ∈ circuitReadings history := by
  obtain ⟨call, hCall, hIn⟩ := h.of_call hMem
  have hRead := (h.shape hCall).reads d.2 hIn t hTouch
  exact List.mem_filterMap.mpr ⟨_, h.chronicle'.of_completed hCall hRead, rfl⟩

/-- Only the first failure resets the count. -/
theorem resets_le : timesOf .resetFailures (deedsOf history) ≤ 1 := by
  have hResets : timesOf .resetFailures (deedsOf history) =
      (deedsOf history).countP fun d => Deed.missed d.2 := by
    have hSame : (completedOf history).map (fun call => call.deeds.countP Deed.resets) =
        (completedOf history).map fun call => call.deeds.countP Deed.missed :=
      List.map_congr_left fun call hCall => (h.shape hCall).resets_eq
    have hCount := h.chronicle'.settled_count h.quiet Deed.resets
    rw [hSame] at hCount
    exact hCount.trans (h.chronicle'.settled_count h.quiet Deed.missed).symm
  rw [hResets]
  refine (carries_missed h.chronicle.carries rfl (fun d hMem => ?_) fun d hD e hE t u hT hU => ?_).1
  · obtain ⟨call, hCall, hIn⟩ := h.of_call hMem
    exact ((h.shape hCall).stores d.2 hIn).1
  · exact h.near t (h.touch_read hD hT) u (h.touch_read hE hU)

theorem stores {d : Thread × Deed CircuitSig} (hMem : d ∈ deedsOf history) :
    ∀ state, d.2.1 = .storeState state → state = .opened := by
  obtain ⟨call, hCall, hIn⟩ := h.of_call hMem
  exact ((h.shape hCall).stores d.2 hIn).2

/-- An increment that reaches the threshold opens the breaker. -/
theorem opens_of_add {t : Thread} {old : UInt32} (hMem : (t, ⟨.addFailure, old⟩) ∈ deedsOf history)
    (hOld : policy.failureThreshold.toNat = old.toNat + 1) :
    ∃ d ∈ deedsOf history, d.2.1 = .storeState .opened := by
  obtain ⟨call, hCall, hIn⟩ := h.of_call hMem
  have hMax := policy.failureThreshold.toNat_lt
  have hTrips : policy.failureThreshold ≤ old + 1 := by
    rw [UInt32.le_iff_toNat_le, UInt32.toNat_add, hOld]
    exact Nat.le_of_eq (Nat.mod_eq_of_lt (by rw [← hOld]; exact hMax)).symm
  exact ⟨_, h.chronicle'.of_completed hCall ((h.shape hCall).trips old hIn hTrips), rfl⟩

/-- A breaker that has opened did so at an increment that reached the threshold. -/
theorem add_of_opens {d : Thread × Deed CircuitSig} (hMem : d ∈ deedsOf history)
    (hStore : d.2.1 = .storeState .opened) : ∃ t, ∃ old : UInt32,
      (t, ⟨.addFailure, old⟩) ∈ deedsOf history ∧ policy.failureThreshold ≤ old + 1 := by
  obtain ⟨call, hCall, hIn⟩ := h.of_call hMem
  rcases (h.shape hCall).store_from d.2 hIn hStore with hLoad | ⟨old, hAdd, hTrips⟩
  · have hLoads := (carries_state h.chronicle.carries rfl fun d hD => h.stores hD).2
    rcases hLoads _ _ (h.chronicle'.of_completed hCall hLoad) with hBad | ⟨hBad, -⟩ <;> cases hBad
  · exact ⟨_, old, h.chronicle'.of_completed hCall hAdd, hTrips⟩

/-- A reset is the only one. -/
theorem sole_reset {before after : List (Thread × Deed CircuitSig)} {reset : Thread × Deed CircuitSig}
    (hSplit : deedsOf history = before ++ reset :: after) (hReset : reset.2.1 = .resetFailures) :
    (∀ d ∈ before, d.2.1 ≠ .resetFailures) ∧ ∀ d ∈ after, d.2.1 ≠ .resetFailures := by
  have hOnce := h.resets_le
  have hOne : timesOf .resetFailures (reset :: after) = timesOf .resetFailures after + 1 :=
    List.countP_cons_of_pos (by simpa using hReset)
  rw [hSplit, timesOf_append, hOne] at hOnce
  have hBefore : timesOf .resetFailures before = 0 := by omega
  have hAfter : timesOf .resetFailures after = 0 := by omega
  exact ⟨fun d hMem => by simpa using List.countP_eq_zero.mp hBefore d hMem,
    fun d hMem => by simpa using List.countP_eq_zero.mp hAfter d hMem⟩

/-- The increments around the reset count from zero on either side. -/
theorem around_reset {before after : List (Thread × Deed CircuitSig)}
    {reset : Thread × Deed CircuitSig} (hSplit : deedsOf history = before ++ reset :: after)
    (hReset : reset.2.1 = .resetFailures) :
    (∀ t (old : UInt32), (t, ⟨.addFailure, old⟩) ∈ deedsOf history →
      old.toNat < timesOf .addFailure before ∨ old.toNat < timesOf .addFailure after) ∧
    (0 < timesOf .addFailure after → ∃ t, ∃ old : UInt32,
      (t, ⟨.addFailure, old⟩) ∈ deedsOf history ∧ old.toNat + 1 = timesOf .addFailure after) ∧
    timesOf .addFailure (deedsOf history) =
      timesOf .addFailure before + timesOf .addFailure after := by
  obtain ⟨hBefore, hAfter⟩ := h.sole_reset hSplit hReset
  have hMax := policy.failureThreshold.toNat_lt
  have hFew := h.adds_le
  have hSum : timesOf .addFailure (deedsOf history) =
      timesOf .addFailure before + timesOf .addFailure after := by
    rw [hSplit, timesOf_append]
    refine congrArg (timesOf .addFailure before + ·) (List.countP_cons_of_neg ?_)
    simp [hReset]
  have hCarries := h.chronicle.carries
  rw [hSplit] at hCarries
  obtain ⟨s₁, hFirst, hRest⟩ := Runs.append_iff.mp hCarries
  obtain ⟨s₂, hStep, hSecond⟩ := Runs.cons_iff.mp hRest
  obtain ⟨u, o, a⟩ := reset
  obtain rfl : o = .resetFailures := hReset
  have hZero : s₂.state.failures.toNat = 0 := by
    rw [show s₂.state.failures = 0 from congrArg CircuitBreaker.failures (circuit_applies hStep)]
    rfl
  have hNew : (CircuitConfig.new Thread policy clock).world.shared.state.failures.toNat = 0 := rfl
  obtain ⟨-, hFirstAdds, -⟩ := carries_failures hFirst hBefore (by omega)
  obtain ⟨-, hSecondAdds, hLast⟩ := carries_failures hSecond hAfter (by omega)
  rw [hNew, Nat.zero_add] at hFirstAdds
  rw [hZero, Nat.zero_add] at hSecondAdds hLast
  refine ⟨fun t old hMem => ?_, fun hSome => ?_, hSum⟩
  · rw [hSplit, List.mem_append, List.mem_cons] at hMem
    rcases hMem with hMem | hThis | hMem
    · exact Or.inl (hFirstAdds t old hMem)
    · cases hThis
    · exact Or.inr (hSecondAdds t old hMem)
  · obtain ⟨t, old, hMem, hOld⟩ := hLast hSome
    exact ⟨t, old, by simp [hSplit, hMem], hOld⟩

/-- In a breaker that never opens every call counts its failure. -/
theorem adds_eq_of_closed (hNever : ∀ d ∈ deedsOf history, d.2.1 ≠ .storeState .opened) :
    timesOf .addFailure (deedsOf history) = policy.failureThreshold.toNat := by
  have hLoads := (carries_state h.chronicle.carries rfl fun d hD => h.stores hD).2
  have hOne : ∀ n ∈ (completedOf history).map fun call => call.deeds.countP Deed.adds, n = 1 := by
    intro n hMem
    obtain ⟨call, hCall, rfl⟩ := List.mem_map.mp hMem
    apply (h.shape hCall).adds_eq
    intro state hLoad
    rcases hLoads _ _ (h.chronicle'.of_completed hCall hLoad) with hClosed | ⟨-, d, hMem, hStore⟩
    · exact hClosed
    · exact absurd hStore (hNever d hMem)
  rw [h.adds_eq, List.sum_eq_card_nsmul _ 1 hOne, ← h.count]
  simp

end FailureRun

/-- Failures of any threads, near each other and as many as the threshold, open a new
breaker exactly when none of them is counted before the reset of the first. -/
theorem failures_open_iff (hThreshold : 1 ≤ policy.failureThreshold.toNat)
    (h : FailureRun policy clock history c) : c.breaker.state = .opened ↔ Unerased history := by
  have hMax := policy.failureThreshold.toNat_lt
  have hFew := h.adds_le
  have hState := (carries_state h.chronicle.carries rfl fun d hD => h.stores hD).1
  constructor
  · intro hOpened before after reset hSplit hReset e hE hAdd
    obtain ⟨hClosed, -⟩ | ⟨-, d, hMem, hStore⟩ := hState
    · rw [show c.world.shared.state.state = .opened from hOpened] at hClosed
      cases hClosed
    · obtain ⟨t, old, hOld, hTrips⟩ := h.add_of_opens hMem hStore
      obtain ⟨hBound, -, hSum⟩ := h.around_reset hSplit hReset
      -- one increment stands before the reset, and the one of the call that resets after it
      have hBefore : 0 < timesOf .addFailure before :=
        List.countP_pos_iff.mpr ⟨e, hE, by simpa using hAdd⟩
      obtain ⟨later, hLater, hItsAdd⟩ := h.chronicle'.followed h.quiet
        (fun call hCall => (h.shape hCall).followed) (t := reset.1) hSplit hReset
      have hAfter : 0 < timesOf .addFailure after :=
        List.countP_pos_iff.mpr ⟨_, hLater, by simpa using hItsAdd⟩
      rw [UInt32.le_iff_toNat_le, UInt32.toNat_add] at hTrips
      have hWrap := Nat.mod_le (old.toNat + (1 : UInt32).toNat) (2 ^ 32)
      have hOneNat : (1 : UInt32).toNat = 1 := rfl
      rcases hBound t old hOld with hLt | hLt <;> omega
  · intro hKept
    obtain ⟨-, hNever⟩ | ⟨hOpened, -⟩ := hState
    · have hAll := h.adds_eq_of_closed hNever
      have hTripped : ∃ t, ∃ old : UInt32, (t, ⟨.addFailure, old⟩) ∈ deedsOf history ∧
          policy.failureThreshold.toNat = old.toNat + 1 := by
        by_cases hSome : ∃ d ∈ deedsOf history, d.2.1 = .resetFailures
        · obtain ⟨reset, hMem, hReset⟩ := hSome
          obtain ⟨before, after, hSplit⟩ := List.append_of_mem hMem
          obtain ⟨-, hLast, hSum⟩ := h.around_reset hSplit hReset
          have hNone := timesOf_eq_zero (hKept before after reset hSplit hReset)
          obtain ⟨t, old, hAdd, hOld⟩ := hLast (by omega)
          exact ⟨t, old, hAdd, by omega⟩
        · have hZero : (CircuitConfig.new Thread policy clock).world.shared.state.failures.toNat = 0 :=
            rfl
          obtain ⟨-, -, hLast⟩ := carries_failures h.chronicle.carries
            (fun d hMem hReset => hSome ⟨d, hMem, hReset⟩) (by omega)
          obtain ⟨t, old, hAdd, hOld⟩ := hLast (by omega)
          exact ⟨t, old, hAdd, by omega⟩
      obtain ⟨t, old, hMem, hOld⟩ := hTripped
      obtain ⟨d, hD, hStore⟩ := h.opens_of_add hMem hOld
      exact absurd hStore (hNever d hD)
    · exact hOpened

/-- Two failures open the breaker. -/
def CircuitPolicy.pair : CircuitPolicy where
  failureThreshold := 2
  failureWindow := .fromNanos 10
  openDuration := .fromNanos 10

/-- Two failures of two threads at one time, in the order of a schedule. -/
theorem FailureRun.of_pair {moves : List (Move Bool CircuitMethod)}
    {history : List (Entry CircuitSig Bool CircuitMethod CircuitState)} {c : CircuitConfig Bool}
    (hRun : scheduleNoting (circuitMachine Bool) (CircuitMethod.body .pair) circuitAnswer
      ([], CircuitConfig.new Bool .pair 0) moves = some (history, c))
    (hFalse : c.threads false = .idle) (hTrue : c.threads true = .idle)
    (hCalls : (completedOf history).map Completed.call = [.recordFailure, .recordFailure])
    (hReadings : circuitReadings history = [0, 0]) : FailureRun .pair 0 history c where
  chronicle := Chronicle.start.scheduled hRun
  quiet t := by cases t <;> assumption
  calls call hMem := by
    have hCall := List.mem_map_of_mem (f := Completed.call) hMem
    rw [hCalls] at hCall
    simpa using hCall
  count := by
    have hLength := congrArg List.length hCalls
    rw [List.length_map] at hLength
    exact hLength
  near t hT u hU := by
    rw [hReadings] at hT hU
    obtain rfl : t = 0 := by simpa using hT
    exact Nat.zero_le _

/-- Two failures one after the other. -/
theorem failures_open_in_turn : ∃ history, ∃ c : CircuitConfig Bool,
    FailureRun .pair 0 history c ∧ (c.breaker.state = .opened ↔ Unerased history) := by
  obtain ⟨history, c, hRun, hFalse, hTrue, hCalls, hReadings⟩ : ∃ history, ∃ c : CircuitConfig Bool,
      scheduleNoting (circuitMachine Bool) (CircuitMethod.body .pair) circuitAnswer
        ([], CircuitConfig.new Bool .pair 0) (.call false .recordFailure ::
          List.replicate 5 (.go false) ++ .ret false :: .call true .recordFailure ::
          List.replicate 6 (.go true) ++ [.ret true]) = some (history, c) ∧
      c.threads false = .idle ∧ c.threads true = .idle ∧
      (completedOf history).map Completed.call = [.recordFailure, .recordFailure] ∧
      circuitReadings history = [0, 0] := ⟨_, _, rfl, rfl, rfl, rfl, rfl⟩
  have h := FailureRun.of_pair hRun hFalse hTrue hCalls hReadings
  exact ⟨history, c, h, failures_open_iff (by decide) h⟩

/-- The first of two failures resets the count after the second was counted: neither of
them finds the threshold reached. -/
theorem not_failures_open : ¬ ∀ (policy : CircuitPolicy) (clock : Instant)
    (history : List (Entry CircuitSig Bool CircuitMethod CircuitState)) (c : CircuitConfig Bool),
    1 ≤ policy.failureThreshold.toNat → FailureRun policy clock history c →
      c.breaker.state = .opened := by
  intro hClaim
  obtain ⟨history, c, hRun, hFalse, hTrue, hClosed, hCalls, hReadings⟩ :
      ∃ history, ∃ c : CircuitConfig Bool,
      scheduleNoting (circuitMachine Bool) (CircuitMethod.body .pair) circuitAnswer
        ([], CircuitConfig.new Bool .pair 0) ([.call false .recordFailure, .go false, .go false,
          .go false, .call true .recordFailure, .go true, .go true, .go true, .go true, .ret true,
          .go false, .go false, .ret false]) = some (history, c) ∧
      c.threads false = .idle ∧ c.threads true = .idle ∧ c.breaker.state = .closed ∧
      (completedOf history).map Completed.call = [.recordFailure, .recordFailure] ∧
      circuitReadings history = [0, 0] := ⟨_, _, rfl, rfl, rfl, rfl, rfl, rfl⟩
  have hOpened := hClaim .pair 0 history c (by decide)
    (FailureRun.of_pair hRun hFalse hTrue hCalls hReadings)
  rw [hClosed] at hOpened
  cases hOpened

end Counting

end ServiceKernel
