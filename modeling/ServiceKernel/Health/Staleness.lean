import ServiceKernel.Health.Registry

/-! When the aggregate is the worst of the latest reports, and how it goes
stale. The aggregate is maintained incrementally from a value read before the
lock is taken, so another report may have moved it in between. The condition
below says exactly which locked sections such a read leaves correct. -/
namespace ServiceKernel

open Interleaving Execution

namespace HealthInner

/-- The aggregate cell agrees with the map. -/
def Consistent (h : HealthInner) : Prop := h.aggregate.load = h.subsystems.worst

instance (h : HealthInner) : Decidable h.Consistent :=
  inferInstanceAs (Decidable (h.aggregate.load = h.subsystems.worst))

/-- The branch selected by the value read before the lock is one the current map
supports. If it raises the aggregate, no other subsystem is worse; if it leaves
the aggregate alone, the report neither exceeds the current aggregate nor
replaces the last subsystem that holds it. A rescan is always safe. -/
def ReadHarmless (h : HealthInner) (subsystem : String) (status prevAggregate : HealthStatus) :
    Prop :=
  if status > prevAggregate then
    ∀ other q, other ≠ subsystem → h.subsystems.lookup other = some q → q ≤ status
  else if h.subsystems.lookup subsystem = some prevAggregate ∧ status < prevAggregate then True
  else status ≤ h.aggregate.load ∧
    (h.subsystems.lookup subsystem = some h.aggregate.load → status = h.aggregate.load ∨
      ∃ other, other ≠ subsystem ∧ h.subsystems.lookup other = some h.aggregate.load)

variable {h : HealthInner} {subsystem : String} {status prevAggregate : HealthStatus}

theorem new_consistent : new.Consistent := rfl

theorem update_subsystems :
    (h.update subsystem status prevAggregate).1.subsystems = h.subsystems.insert subsystem status :=
  rfl

/-- What the locked section leaves in the aggregate cell. -/
theorem update_aggregate :
    (h.update subsystem status prevAggregate).1.aggregate.load =
      if newAggregate (h.subsystems.insert subsystem status) (h.subsystems.lookup subsystem) status
        prevAggregate ≠ prevAggregate then
        newAggregate (h.subsystems.insert subsystem status) (h.subsystems.lookup subsystem) status
          prevAggregate
      else h.aggregate.load := by
  simp only [update]
  split_ifs <;> simp

/-- After inserting a report, `s` is the worst status exactly if it bounds the
report and every other subsystem and one of them attains it. -/
theorem worst_insert_eq_iff {m : HealthMap} {s : HealthStatus} :
    HealthMap.worst (m.insert subsystem status) = s ↔
      (status ≤ s ∧ ∀ other q, other ≠ subsystem → m.lookup other = some q → q ≤ s) ∧
      (s = .healthy ∨ status = s ∨ ∃ other, other ≠ subsystem ∧ m.lookup other = some s) := by
  rw [HealthMap.worst_eq_iff]
  simp only [HealthMap.lookup_insert_eq]
  constructor
  · rintro ⟨hBound, hAttained⟩
    refine ⟨⟨hBound subsystem status (by simp), fun other q hne hq =>
      hBound other q (by simpa [hne] using hq)⟩, ?_⟩
    rcases hAttained with h | ⟨name, h⟩
    · exact Or.inl h
    · by_cases hName : name = subsystem
      · exact Or.inr (Or.inl (by simpa [hName] using h))
      · exact Or.inr (Or.inr ⟨name, hName, by simpa [hName] using h⟩)
  · rintro ⟨⟨hStatus, hOther⟩, hAttained⟩
    refine ⟨fun name q hq => ?_, ?_⟩
    · by_cases hName : name = subsystem
      · simp only [hName, if_true, Option.some.injEq] at hq
        exact hq ▸ hStatus
      · exact hOther name q hName (by simpa [hName] using hq)
    · rcases hAttained with h | h | ⟨name, hName, h⟩
      · exact Or.inl h
      · exact Or.inr ⟨subsystem, by simp [h]⟩
      · exact Or.inr ⟨name, by simpa [hName] using h⟩

/-- The locked section of a report keeps the aggregate right exactly if what it
read before the lock was harmless. -/
theorem update_consistent_iff (hOld : h.Consistent) :
    (h.update subsystem status prevAggregate).1.Consistent ↔
      h.ReadHarmless subsystem status prevAggregate := by
  have hBound := (HealthMap.worst_eq_iff.mp hOld.symm).1
  have hAttained := (HealthMap.worst_eq_iff.mp hOld.symm).2
  rw [Consistent, update_aggregate, update_subsystems, ReadHarmless, newAggregate]
  split_ifs with hUp hCurrent hRescan hCurrent' hSame
  · -- The report raises the aggregate and stores itself.
    rw [eq_comm, worst_insert_eq_iff]
    exact ⟨fun h => h.1.2, fun h => ⟨⟨le_refl _, h⟩, Or.inr (Or.inl rfl)⟩⟩
  · exact absurd hCurrent (not_not.mpr (ne_of_gt hUp))
  · -- A rescan that moves the aggregate stores the new maximum.
    simp
  · -- A rescan that finds the value it read: then the cell still holds it.
    obtain ⟨⟨-, hOthers⟩, -⟩ := worst_insert_eq_iff.mp (not_not.mp hCurrent')
    have hCell : h.aggregate.load = prevAggregate := by
      refine le_antisymm ?_ (hBound subsystem _ hRescan.1)
      rcases hAttained with hHealthy | ⟨name, hName⟩
      · exact hHealthy ▸ HealthStatus.healthy_le _
      · rcases eq_or_ne name subsystem with rfl | hne
        · rw [hRescan.1, Option.some.injEq] at hName
          exact hName.ge
        · exact hOthers name _ hne hName
    simp [hCell, not_not.mp hCurrent']
  · exact absurd rfl hSame
  · -- Nothing is stored: the old aggregate must still be the maximum.
    rw [eq_comm, worst_insert_eq_iff]
    constructor
    · rintro ⟨⟨hStatus, -⟩, hHolder⟩
      refine ⟨hStatus, fun hMine => ?_⟩
      rcases hHolder with hHealthy | hEq | hOther
      · exact Or.inl (le_antisymm hStatus (hHealthy ▸ HealthStatus.healthy_le _))
      · exact Or.inl hEq
      · exact Or.inr hOther
    · rintro ⟨hStatus, hMine⟩
      refine ⟨⟨hStatus, fun other q _ hq => hBound other q hq⟩, ?_⟩
      rcases hAttained with hHealthy | ⟨name, hName⟩
      · exact Or.inl hHealthy
      · rcases eq_or_ne name subsystem with rfl | hne
        · exact Or.inr (hMine hName)
        · exact Or.inr (Or.inr ⟨name, hne, hName⟩)

/-- A value read in the same state is always harmless: sequential reports keep
the aggregate right. -/
theorem readHarmless_of_current (hOld : h.Consistent) :
    h.ReadHarmless subsystem status h.aggregate.load := by
  have hBound := (HealthMap.worst_eq_iff.mp hOld.symm).1
  rw [ReadHarmless]
  split_ifs with hUp hRescan
  · exact fun other q _ hq => (hBound other q hq).trans (le_of_lt hUp)
  · refine ⟨not_lt.mp hUp, fun hMine => Or.inl (le_antisymm (not_lt.mp hUp) (not_lt.mp ?_))⟩
    exact fun hLower => hRescan ⟨hMine, hLower⟩

end HealthInner

/-- The status each name reported last, in the order the lock was taken. -/
def latestReport {Thread : Type} (trace : List (Thread × HealthRecord)) (name : String) :
    Option HealthStatus :=
  trace.foldl (fun latest entry => match entry.2 with
    | .updated subsystem status => if name = subsystem then some status else latest
    | _ => latest) none

/-- `aggregate` is the maximum of the latest reports, `Healthy` if there is none. -/
def IsWorstOf (aggregate : HealthStatus) (reports : String → Option HealthStatus) : Prop :=
  (∀ name q, reports name = some q → q ≤ aggregate) ∧
    (aggregate = .healthy ∨ ∃ name, reports name = some aggregate)

variable {Thread : Type} [DecidableEq Thread] {events : Bool}
  {c c' : HealthConfig Thread} {label : Label HealthSig Thread HealthCall}

/-- The aggregate is not stale here: every snapshot taken so far agrees with its
own map, and with no report in progress the aggregate is the maximum of the
latest reports. -/
def AggregateCurrent (c : HealthConfig Thread) : Prop :=
  (∀ t s, (t, HealthRecord.snapshot s) ∈ c.world.trace → s.aggregate = s.subsystems.worst) ∧
  (c.Quiescent → IsWorstOf c.world.shared.aggregate.load (latestReport c.world.trace))

/-- The condition on a step: a locked section of a report is entered with a
harmless value. -/
def ReportHarmless (c : HealthConfig Thread) : Label HealthSig Thread HealthCall → Prop
  | .op _ (.update subsystem status prevAggregate) _ =>
    c.world.shared.ReadHarmless subsystem status prevAggregate
  | _ => True

/-- What one step does to the shared state and the history. -/
theorem healthStep_cases (h : HealthStep Thread events c label c') :
    (∃ t subsystem status prevAggregate a,
      label = .op t (.update subsystem status prevAggregate) a ∧
      c'.world.shared = (c.world.shared.update subsystem status prevAggregate).1 ∧
      c'.world.trace = c.world.trace ++ [(t, .updated subsystem status)]) ∨
    (c'.world.shared = c.world.shared ∧ (∀ t subsystem status prevAggregate a,
      label ≠ .op t (.update subsystem status prevAggregate) a) ∧
      (c'.world.trace = c.world.trace ∨ ∃ t record,
        c'.world.trace = c.world.trace ++ [(t, record)] ∧
        (∀ s, record = .snapshot s → s = c.world.shared.snapshot) ∧
        ∀ subsystem status, record ≠ .updated subsystem status)) := by
  cases h with
  | call h => exact Or.inr ⟨rfl, by simp, Or.inl rfl⟩
  | ret h => exact Or.inr ⟨rfl, by simp, Or.inl rfl⟩
  | @op t k o next a shared hRun hExec =>
      cases o with
      | update subsystem status prevAggregate =>
          simp only [healthMachine, Option.ite_none_right_eq_some, Option.some.injEq] at hExec
          exact Or.inl ⟨t, subsystem, status, prevAggregate, a, rfl, hExec.2.symm, rfl⟩
      | loadAggregate | subsystem name =>
          simp only [healthMachine, Option.ite_none_right_eq_some, Option.some.injEq] at hExec
          exact Or.inr ⟨hExec.2.symm, by simp, Or.inr ⟨t, _, rfl, by simp [healthMachine], by
            simp [healthMachine]⟩⟩
      | emit event =>
          simp only [healthMachine, Option.some.injEq] at hExec
          exact Or.inr ⟨hExec.symm, by simp, Or.inr ⟨t, _, rfl, by simp [healthMachine], by
            simp [healthMachine]⟩⟩
      | snapshot =>
          simp only [healthMachine, Option.ite_none_right_eq_some, Option.some.injEq] at hExec
          refine Or.inr ⟨hExec.2.symm, by simp, Or.inr ⟨t, _, rfl, ?_, by simp [healthMachine]⟩⟩
          intro s hs
          simp only [healthMachine, HealthRecord.snapshot.injEq] at hs
          exact hs ▸ hExec.1

omit [DecidableEq Thread] in
theorem latestReport_append (trace : List (Thread × HealthRecord)) (t : Thread)
    (record : HealthRecord) (name : String) :
    latestReport (trace ++ [(t, record)]) name = match record with
      | .updated subsystem status =>
        if name = subsystem then some status else latestReport trace name
      | _ => latestReport trace name := by
  simp [latestReport]

/-- The map always holds the latest reports, however they interleave. -/
theorem subsystems_eq_latest (reach : Reachable (HealthStep Thread events) (.fresh Thread) c)
    (name : String) : c.world.shared.subsystems.lookup name = latestReport c.world.trace name := by
  refine reach.invariant (fun c => c.world.shared.subsystems.lookup name =
    latestReport c.world.trace name) rfl ?_
  intro c label c' ih hStep
  rcases healthStep_cases hStep with ⟨t, subsystem, status, prev, a, -, hShared, hTrace⟩ |
    ⟨hShared, -, hTrace | ⟨t, record, hTrace, -, hUpdate⟩⟩
  · rw [hShared, hTrace, latestReport_append, HealthInner.update_subsystems,
      HealthMap.lookup_insert_eq, ih]
  · rw [hShared, hTrace, ih]
  · rw [hShared, hTrace, ih, latestReport_append]
    cases record <;> simp_all

/-- One step keeps the aggregate in agreement with the map exactly if it meets
the condition. -/
theorem healthStep_consistent_iff (hOld : c.world.shared.Consistent)
    (h : HealthStep Thread events c label c') :
    c'.world.shared.Consistent ↔ ReportHarmless c label := by
  rcases healthStep_cases h with ⟨t, subsystem, status, prev, a, rfl, hShared, -⟩ |
    ⟨hShared, hLabel, -⟩
  · rw [hShared]
    exact HealthInner.update_consistent_iff hOld
  · rw [hShared]
    apply iff_of_true hOld
    unfold ReportHarmless
    split
    · exact absurd rfl (hLabel _ _ _ _ _)
    · trivial

/-- Along a run whose reports all enter the lock with a harmless value, the
cell agrees with the map and so did every snapshot. -/
theorem consistent_of_harmless
    (reach : Reachable (Restrict (HealthStep Thread events) ReportHarmless) (.fresh Thread) c) :
    c.world.shared.Consistent ∧
      ∀ t s, (t, HealthRecord.snapshot s) ∈ c.world.trace → s.aggregate = s.subsystems.worst := by
  refine reach.invariant (fun c => c.world.shared.Consistent ∧ ∀ t s,
    (t, HealthRecord.snapshot s) ∈ c.world.trace → s.aggregate = s.subsystems.worst)
    ⟨HealthInner.new_consistent, by simp [HealthConfig.fresh, Config.start]⟩ ?_
  rintro c label c' ⟨hOld, hSnapshots⟩ ⟨hStep, hCond⟩
  refine ⟨(healthStep_consistent_iff hOld hStep).mpr hCond, fun t s hMem => ?_⟩
  rcases healthStep_cases hStep with ⟨u, _, _, _, _, -, -, hTrace⟩ |
    ⟨-, -, hTrace | ⟨u, record, hTrace, hSnapshot, -⟩⟩
  · exact hSnapshots t s (by simpa [hTrace] using hMem)
  · exact hSnapshots t s (hTrace ▸ hMem)
  · rw [hTrace, List.mem_append, List.mem_singleton] at hMem
    rcases hMem with hMem | hMem
    · exact hSnapshots t s hMem
    · obtain ⟨-, rfl⟩ := Prod.mk.injEq .. ▸ hMem
      rw [hSnapshot s rfl]
      exact hOld

/-- The runs whose aggregate agrees with the map in every state are exactly the
runs whose reports all enter the lock with a harmless value, and along those
runs no observer sees a stale aggregate. -/
theorem aggregate_current_iff (Thread : Type) [DecidableEq Thread] (events : Bool)
    (labels : List (Label HealthSig Thread HealthCall)) (finish : HealthConfig Thread) :
    (Runs (Within (HealthStep Thread events) fun c => c.world.shared.Consistent)
        (.fresh Thread) labels finish ↔
      Runs (Restrict (HealthStep Thread events) ReportHarmless) (.fresh Thread) labels finish) ∧
    (Runs (Restrict (HealthStep Thread events) ReportHarmless) (.fresh Thread) labels finish →
      AggregateCurrent finish) := by
  constructor
  · exact runs_within_iff_restrict _ (fun _ => True) HealthInner.new_consistent trivial
      (fun _ _ _ _ _ => trivial) fun _ _ _ _ hGood hStep => healthStep_consistent_iff hGood hStep
  · intro run
    obtain ⟨hCell, hSnapshots⟩ := consistent_of_harmless run.reachable
    have hLatest := subsystems_eq_latest (run.reachable.mono fun _ _ _ h => h.1)
    refine ⟨hSnapshots, fun _ => ?_⟩
    have hWorst := HealthMap.worst_eq_iff.mp hCell.symm
    simpa only [IsWorstOf, hLatest] using hWorst

/-- Thread `false` reads `Healthy`, thread `true` reports `Degraded` in full, and thread `false`
goes on to report `Critical`, which is harmless: the snapshot after both shows `Critical`. -/
theorem aggregate_current_after_reports : ∃ (c : HealthConfig Bool) (s : HealthSnapshot),
    c.Quiescent ∧ (true, .snapshot s) ∈ c.world.trace ∧ s.aggregate = .critical ∧
    latestReport c.world.trace "network" = some .degraded ∧ AggregateCurrent c := by
  obtain ⟨c, hRun, hQuiet, s, hSnapshot, hCritical, hNetwork⟩ : ∃ c : HealthConfig Bool,
      scheduleWithin (healthMachine Bool) (healthBody true) healthAnswer
        (fun c => c.world.shared.Consistent) (HealthConfig.fresh Bool)
        [.call false (.report "storage" .critical), .go false,
          .call true (.report "network" .degraded), .go true, .go true, .go true, .go true,
          .ret true, .go false, .go false, .go false, .ret false,
          .call true .snapshot, .go true, .ret true] = some c ∧
      c.Quiescent ∧ ∃ s, (true, HealthRecord.snapshot s) ∈ c.world.trace ∧ s.aggregate = .critical ∧
        latestReport c.world.trace "network" = some .degraded :=
    ⟨_, rfl, fun t => by cases t <;> rfl, _, List.mem_of_getElem? (i := 8) rfl, rfl, rfl⟩
  obtain ⟨labels, run⟩ := scheduleWithin_runs hRun
  obtain ⟨hIff, hCurrent⟩ := aggregate_current_iff Bool true labels c
  exact ⟨c, s, hQuiet, hSnapshot, hCritical, hNetwork, hCurrent (hIff.mp run)⟩

/-- Thread `false` reads `Healthy`, thread `true` then reports `Critical` in full,
and thread `false` overwrites the aggregate with its own `Degraded`. -/
theorem aggregate_goes_stale :
    ¬ ∀ c : HealthConfig Bool, Reachable (HealthStep Bool true) (.fresh Bool) c →
      AggregateCurrent c := by
  intro hClaim
  obtain ⟨c, hRun, hQuiet, hCell, hWorse⟩ : ∃ c : HealthConfig Bool,
      schedule (healthMachine Bool) (healthBody true) healthAnswer (HealthConfig.fresh Bool)
        [.call false (.report "storage" .degraded), .go false,
          .call true (.report "network" .critical), .go true, .go true, .go true, .go true,
          .ret true, .go false, .go false, .go false, .ret false] = some c ∧
      c.Quiescent ∧ c.world.shared.aggregate.load = .degraded ∧
      latestReport c.world.trace "network" = some .critical :=
    ⟨_, rfl, fun t => by cases t <;> rfl, rfl, rfl⟩
  have hLaw := (hClaim c (schedule_reachable hRun)).2 hQuiet
  rw [hCell] at hLaw
  exact absurd (hLaw.1 "network" .critical hWorse) (by decide)

end ServiceKernel
