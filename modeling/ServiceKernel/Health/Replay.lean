import Mathlib.Data.List.Induction
import ServiceKernel.Health.Staleness
import ServiceKernel.Semantics.History

/-! Reports made one after another. The registry then keeps the worst of the latest
reports, and its events are a log from which the registry can be rebuilt. -/
namespace ServiceKernel

open Interleaving Execution

variable {Thread : Type}

/-- Whole calls of `report`, one after another, on a fresh registry wired to events. -/
inductive ReportedInTurn : List (String × HealthStatus) → World Thread HealthInner HealthRecord → Prop
    where
  | zero : ReportedInTurn [] ⟨.new, []⟩
  | succ {calls w w'} {t : Thread} {name : String} {status : HealthStatus}
      (prior : ReportedInTurn calls w)
      (last : Solo (healthMachine Thread) t (report true name status) w () w') :
      ReportedInTurn (calls ++ [(name, status)]) w'

/-- The last status that was reported under a name. -/
def latestOf (calls : List (String × HealthStatus)) (name : String) : Option HealthStatus :=
  calls.foldl (fun latest call => if name = call.1 then some call.2 else latest) none

/-- The events that were delivered, in order. -/
def emittedEvents (trace : List (Thread × HealthRecord)) : List HealthEvent :=
  trace.filterMap fun e => match e.2 with
    | .emitted event => some event
    | _ => none

def aggregateMoves (events : List HealthEvent) : List (HealthStatus × HealthStatus) :=
  events.filterMap fun
    | .aggregateChanged fromStatus toStatus => some (fromStatus, toStatus)
    | _ => none

def subsystemMoves (name : String) (events : List HealthEvent) : List (HealthStatus × HealthStatus) :=
  events.filterMap fun
    | .subsystemChanged subsystem fromStatus toStatus =>
      if subsystem = name then some (fromStatus, toStatus) else none
    | _ => none

/-- What a consumer of the log makes of it: a map of statuses and an aggregate. -/
def replayEvents (events : List HealthEvent) : (String → Option HealthStatus) × HealthStatus :=
  events.foldl (fun (statuses, aggregate) event => match event with
    | .subsystemChanged subsystem _ toStatus =>
      (Function.update statuses subsystem (some toStatus), aggregate)
    | .aggregateChanged _ toStatus => (statuses, toStatus)) (fun _ => none, .healthy)

namespace HealthInner

variable (h : HealthInner) (name : String) (status : HealthStatus)

/-- A report that nobody interferes with. -/
def reported : HealthInner := (h.update name status h.aggregate.load).1

/-- The events of such a report. -/
def reportEvents : List HealthEvent :=
  if h.subsystems.lookup name = some status then []
  else .subsystemChanged name ((h.subsystems.lookup name).getD .unknown) status ::
    if (h.reported name status).aggregate.load = h.aggregate.load then []
    else [.aggregateChanged h.aggregate.load (h.reported name status).aggregate.load]

variable {h name status}

theorem reported_consistent (hOld : h.Consistent) : (h.reported name status).Consistent :=
  (update_consistent_iff hOld).mpr (readHarmless_of_current hOld)

theorem reported_lookup (other : String) : (h.reported name status).subsystems.lookup other =
    if other = name then some status else h.subsystems.lookup other :=
  HealthMap.lookup_insert_eq h.subsystems name other status

/-- The aggregate that the report decides on is the one that is then stored. -/
theorem reported_aggregate (h : HealthInner) (name : String) (status : HealthStatus) :
    (h.reported name status).aggregate.load =
    (h.update name status h.aggregate.load).2.newAggregate := by
  rw [reported, update_aggregate]
  split_ifs with hNew
  · rfl
  · exact (not_not.mp hNew).symm

/-- A status that is reported again does not move the aggregate. -/
theorem reported_again (hOld : h.Consistent) (hSame : h.subsystems.lookup name = some status) :
    (h.reported name status).aggregate.load = h.aggregate.load := by
  have hLe : status ≤ h.aggregate.load := by
    rw [show h.aggregate.load = h.subsystems.worst from hOld]
    exact HealthMap.le_worst hSame
  rw [reported_aggregate]
  simp only [update, newAggregate, hSame, Option.some.injEq]
  rw [if_neg (not_lt.mpr hLe), if_neg fun hBoth => (ne_of_lt hBoth.2) hBoth.1]

end HealthInner

section Solo

variable {t : Thread} {w w' : World Thread HealthInner HealthRecord} {name : String}
  {status : HealthStatus}

/-- What a report does when nobody interferes with it. -/
theorem report_alone (h : Solo (healthMachine Thread) t (report true name status) w () w') :
    w'.shared = w.shared.reported name status ∧
      emittedEvents w'.trace = emittedEvents w.trace ++ w.shared.reportEvents name status := by
  obtain ⟨loaded, s₁, hLoad, h⟩ := solo_perform_iff.mp h
  simp only [healthMachine, Option.ite_none_right_eq_some, Option.some.injEq] at hLoad
  obtain ⟨rfl, rfl⟩ := hLoad
  obtain ⟨outcome, s₂, hUpdate, h⟩ := solo_perform_iff.mp h
  simp only [healthMachine, Machine.after_shared, Option.ite_none_right_eq_some,
    Option.some.injEq] at hUpdate
  obtain ⟨rfl, rfl⟩ := hUpdate
  have hNew := HealthInner.reported_aggregate w.shared name status
  simp only [Program.bind, Bool.and_true] at h
  by_cases hSame : w.shared.subsystems.lookup name = some status
  · have hUnchanged : (w.shared.update name status w.shared.aggregate.load).2.subsystemChanged = false := by
      simp [HealthInner.update, hSame]
    rw [if_neg (by simp [hUnchanged])] at h
    obtain ⟨-, rfl⟩ := solo_done_iff.mp h
    refine ⟨rfl, ?_⟩
    simp [HealthInner.reportEvents, hSame, emittedEvents, healthMachine]
  · have hChanged : (w.shared.update name status w.shared.aggregate.load).2.subsystemChanged = true := by
      simp [HealthInner.update, hSame]
    rw [if_pos hChanged] at h
    obtain ⟨u, s₃, hEmit, h⟩ := solo_perform_iff.mp h
    obtain rfl := Option.some.inj hEmit
    simp only [Program.bind] at h
    rw [← hNew] at h
    by_cases hAggregate : (w.shared.reported name status).aggregate.load = w.shared.aggregate.load
    · rw [if_neg (not_not.mpr hAggregate)] at h
      obtain ⟨-, rfl⟩ := solo_done_iff.mp h
      refine ⟨rfl, ?_⟩
      simp [HealthInner.reportEvents, hSame, hAggregate, emittedEvents, healthMachine,
        HealthInner.update]
    · rw [if_pos hAggregate] at h
      obtain ⟨u, s₄, hEmit, h⟩ := solo_perform_iff.mp h
      obtain rfl := Option.some.inj hEmit
      obtain ⟨-, rfl⟩ := solo_done_iff.mp h
      refine ⟨rfl, ?_⟩
      simp [HealthInner.reportEvents, hSame, hAggregate, emittedEvents, healthMachine,
        HealthInner.update]

/-- No program on the registry is ever blocked. -/
theorem exists_alone {α : Type} (p : Program HealthSig α) (t : Thread)
    (w : World Thread HealthInner HealthRecord) : ∃ r w', Solo (healthMachine Thread) t p w r w' := by
  induction p generalizing w with
  | done r => exact ⟨r, w, Solo.done r w⟩
  | perform o next ih =>
      obtain ⟨shared, hExec⟩ : ∃ shared,
          (healthMachine Thread).exec t o (healthAnswer t o w.shared) w.shared = some shared := by
        cases o with
        | emit => exact ⟨_, rfl⟩
        | _ => exact ⟨_, if_pos rfl⟩
      obtain ⟨r, w', hRest⟩ := ih _ ((healthMachine Thread).after w t o _ shared)
      exact ⟨r, w', Solo.perform hExec hRest⟩

theorem exists_reportedInTurn (T : Type) [Nonempty T] (calls : List (String × HealthStatus)) :
    ∃ w : World T HealthInner HealthRecord, ReportedInTurn calls w := by
  induction calls using List.reverseRecOn with
  | nil => exact ⟨_, .zero⟩
  | append_singleton calls call ih =>
      obtain ⟨w, hPrior⟩ := ih
      obtain ⟨t⟩ := ‹Nonempty T›
      obtain ⟨_, w', hLast⟩ := exists_alone (report true call.1 call.2) t w
      exact ⟨w', .succ hPrior hLast⟩

end Solo

section Events

variable {h : HealthInner} {name : String} {status : HealthStatus}

theorem aggregateMoves_append (events more : List HealthEvent) :
    aggregateMoves (events ++ more) = aggregateMoves events ++ aggregateMoves more :=
  List.filterMap_append

theorem subsystemMoves_append (events more : List HealthEvent) :
    subsystemMoves name (events ++ more) = subsystemMoves name events ++ subsystemMoves name more :=
  List.filterMap_append

/-- One event for an actual change of the aggregate, none otherwise. -/
theorem aggregateMoves_reportEvents (hOld : h.Consistent) :
    aggregateMoves (h.reportEvents name status) =
      if (h.reported name status).aggregate.load = h.aggregate.load then []
      else [(h.aggregate.load, (h.reported name status).aggregate.load)] := by
  rw [HealthInner.reportEvents]
  split_ifs with hSame hAggregate hAggregate
  · rfl
  · exact absurd (HealthInner.reported_again hOld hSame) hAggregate
  · rfl
  · rfl

theorem subsystemMoves_reportEvents (other : String) :
    subsystemMoves other (h.reportEvents name status) =
      if other = name ∧ h.subsystems.lookup name ≠ some status then
        [((h.subsystems.lookup name).getD .unknown, status)]
      else [] := by
  rw [HealthInner.reportEvents]
  by_cases hSame : h.subsystems.lookup name = some status
  · simp [hSame, subsystemMoves]
  · by_cases hName : other = name
    · subst hName
      split_ifs <;> simp_all [subsystemMoves]
    · have hOther : name ≠ other := fun hEq => hName hEq.symm
      split_ifs <;> simp_all [subsystemMoves]

theorem replayEvents_append (events more : List HealthEvent) :
    replayEvents (events ++ more) = more.foldl (fun (statuses, aggregate) event => match event with
      | .subsystemChanged subsystem _ toStatus =>
        (Function.update statuses subsystem (some toStatus), aggregate)
      | .aggregateChanged _ toStatus => (statuses, toStatus)) (replayEvents events) :=
  List.foldl_append

/-- Replaying the events of a report as well takes the rebuilt state along. -/
theorem replayEvents_report {events : List HealthEvent} (hOld : h.Consistent)
    (hReplay : replayEvents events = (h.subsystems.lookup, h.aggregate.load)) :
    replayEvents (events ++ h.reportEvents name status) =
      ((h.reported name status).subsystems.lookup, (h.reported name status).aggregate.load) := by
  have hLookup : (h.reported name status).subsystems.lookup =
      Function.update h.subsystems.lookup name (some status) := by
    funext other
    rw [HealthInner.reported_lookup, Function.update_apply]
  rw [replayEvents_append, hReplay, HealthInner.reportEvents, hLookup]
  split_ifs with hSame hAggregate
  · simp [HealthInner.reported_again hOld hSame, ← hSame]
  · simp [hAggregate]
  · simp

end Events

section Replay

variable {calls : List (String × HealthStatus)} {w : World Thread HealthInner HealthRecord}

theorem latestOf_concat (name : String) (call : String × HealthStatus) :
    latestOf (calls ++ [call]) name = if name = call.1 then some call.2 else latestOf calls name := by
  simp [latestOf]

/-- The state of the registry and its events after some reports. -/
structure HealthReplay (calls : List (String × HealthStatus))
    (w : World Thread HealthInner HealthRecord) : Prop where
  stored : ∀ name, w.shared.subsystems.lookup name = latestOf calls name
  aggregate : IsWorstOf w.shared.aggregate.load (latestOf calls)
  aggregate_chain : Linked .healthy (aggregateMoves (emittedEvents w.trace)) w.shared.aggregate.load
  aggregate_moves : ∀ move ∈ aggregateMoves (emittedEvents w.trace), move.1 ≠ move.2
  subsystem_chain : ∀ name, Linked .unknown (subsystemMoves name (emittedEvents w.trace))
    ((w.shared.subsystems.lookup name).getD .unknown)
  rebuilt : replayEvents (emittedEvents w.trace) =
    (w.shared.subsystems.lookup, w.shared.aggregate.load)

theorem ReportedInTurn.consistent (h : ReportedInTurn calls w) : w.shared.Consistent := by
  induction h with
  | zero => exact HealthInner.new_consistent
  | succ prior last ih =>
      rw [(report_alone last).1]
      exact HealthInner.reported_consistent ih

theorem ReportedInTurn.stored (h : ReportedInTurn calls w) (name : String) :
    w.shared.subsystems.lookup name = latestOf calls name := by
  induction h with
  | zero => rfl
  | succ prior last ih =>
      rw [(report_alone last).1, HealthInner.reported_lookup, latestOf_concat, ih]

theorem ReportedInTurn.aggregate_chain (h : ReportedInTurn calls w) :
    Linked .healthy (aggregateMoves (emittedEvents w.trace)) w.shared.aggregate.load ∧
      ∀ move ∈ aggregateMoves (emittedEvents w.trace), move.1 ≠ move.2 := by
  induction h with
  | zero => exact ⟨rfl, by simp [aggregateMoves, emittedEvents]⟩
  | succ prior last ih =>
      obtain ⟨hShared, hEvents⟩ := report_alone last
      rw [hShared, hEvents, aggregateMoves_append, aggregateMoves_reportEvents prior.consistent]
      split_ifs with hSame
      · rw [List.append_nil, hSame]
        exact ih
      · refine ⟨linked_concat.mpr ⟨ih.1, rfl⟩, fun move hMem => ?_⟩
        rcases List.mem_append.mp hMem with hOld | hNew
        · exact ih.2 move hOld
        · obtain rfl := List.mem_singleton.mp hNew
          exact fun hEq => hSame hEq.symm

theorem ReportedInTurn.subsystem_chain (h : ReportedInTurn calls w) (name : String) :
    Linked .unknown (subsystemMoves name (emittedEvents w.trace))
      ((w.shared.subsystems.lookup name).getD .unknown) := by
  induction h with
  | zero => rfl
  | @succ calls w w' t reported status prior last ih =>
      obtain ⟨hShared, hEvents⟩ := report_alone last
      rw [hShared, hEvents, subsystemMoves_append, subsystemMoves_reportEvents,
        HealthInner.reported_lookup]
      by_cases hName : name = reported
      · subst hName
        by_cases hSame : w.shared.subsystems.lookup name = some status
        · simpa [hSame] using ih
        · simpa [hSame, linked_concat] using ih
      · simpa [hName] using ih

theorem ReportedInTurn.rebuilt (h : ReportedInTurn calls w) :
    replayEvents (emittedEvents w.trace) =
      (fun name => w.shared.subsystems.lookup name, w.shared.aggregate.load) := by
  induction h with
  | zero => rfl
  | succ prior last ih =>
      obtain ⟨hShared, hEvents⟩ := report_alone last
      rw [hShared, hEvents]
      exact replayEvents_report prior.consistent ih

theorem ReportedInTurn.replay (h : ReportedInTurn calls w) : HealthReplay calls w := by
  have hWorst := HealthMap.worst_eq_iff.mp h.consistent.symm
  simp only [h.stored] at hWorst
  exact ⟨h.stored, hWorst, h.aggregate_chain.1, h.aggregate_chain.2, h.subsystem_chain, h.rebuilt⟩

/-- Reports made one after another are one way to run the registry. -/
theorem ReportedInTurn.reachable [DecidableEq Thread] (h : ReportedInTurn calls w) :
    Reachable (HealthStep Thread true) (.fresh Thread) (Config.start w) := by
  induction h with
  | zero => exact Reachable.refl _
  | @succ calls w w' t name status prior last ih =>
      have hCall : Solo (healthMachine Thread) t (healthBody true (.report name status)) w .reported w' :=
        last.bind (Solo.done _ _)
      exact ih.trans hCall.complete_call

/-- After any reports made one after another the registry holds the worst of the latest,
and its events chain up to and rebuild what it holds. One more report adds an event for
an actual change of the aggregate, and nothing if it repeats what is stored. -/
theorem health_replayed (h : ReportedInTurn calls w) :
    HealthReplay calls w ∧
      ∀ t name status w', Solo (healthMachine Thread) t (report true name status) w () w' →
        (aggregateMoves (emittedEvents w'.trace) = aggregateMoves (emittedEvents w.trace) ++
          if w'.shared.aggregate.load = w.shared.aggregate.load then []
          else [(w.shared.aggregate.load, w'.shared.aggregate.load)]) ∧
        (w.shared.subsystems.lookup name = some status →
          w'.shared.aggregate.load = w.shared.aggregate.load ∧
          (∀ other, w'.shared.subsystems.lookup other = w.shared.subsystems.lookup other) ∧
          emittedEvents w'.trace = emittedEvents w.trace) := by
  refine ⟨h.replay, fun t name status w' hReport => ?_⟩
  obtain ⟨hShared, hEvents⟩ := report_alone hReport
  refine ⟨?_, fun hSame => ⟨?_, fun other => ?_, ?_⟩⟩
  · rw [hShared, hEvents, aggregateMoves_append, aggregateMoves_reportEvents h.consistent]
  · rw [hShared, HealthInner.reported_again h.consistent hSame]
  · rw [hShared, HealthInner.reported_lookup]
    split_ifs with hName
    · rw [hName, hSame]
    · rfl
  · rw [hEvents, HealthInner.reportEvents, if_pos hSame, List.append_nil]

/-- A subsystem fails, is reported a second time and recovers, so the aggregate falls back
to what another one reported. -/
theorem health_replayed_recovery : ∃ w : World Unit HealthInner HealthRecord,
    HealthReplay [("db", .degraded), ("net", .critical), ("net", .critical), ("net", .healthy)] w ∧
      w.shared.aggregate.load = .degraded := by
  obtain ⟨w, h⟩ := exists_reportedInTurn Unit
    [("db", .degraded), ("net", .critical), ("net", .critical), ("net", .healthy)]
  have hReplay := (health_replayed h).1
  obtain ⟨hBound, hAttained⟩ := hReplay.aggregate
  have hLeast := hBound "db" .degraded (by decide)
  have hOnly : ∀ name status, latestOf [("db", .degraded), ("net", .critical), ("net", .critical),
      ("net", .healthy)] name = some status → status ≤ .degraded := by
    intro name status hLatest
    simp only [latestOf, List.foldl_cons, List.foldl_nil] at hLatest
    split_ifs at hLatest <;> cases hLatest <;> decide
  refine ⟨w, hReplay, le_antisymm ?_ hLeast⟩
  rcases hAttained with hHealthy | ⟨name, hLatest⟩
  · rw [hHealthy]
    decide
  · exact hOnly name _ hLatest

end Replay

end ServiceKernel
