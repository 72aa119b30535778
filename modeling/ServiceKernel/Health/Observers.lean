import ServiceKernel.Health.Staleness
import ServiceKernel.Semantics.Publication

/-! What an observer of the health events ends up with. The aggregate is stored under the
lock and announced after it, so the announcements of two reports may be delivered in the
other order; the condition below says which steps leave observers right. -/
namespace ServiceKernel

open Interleaving Execution

/-- The aggregate that the rest of a call will announce. -/
def announces : Program HealthSig HealthResult → Option HealthStatus
  | .perform (.emit (.aggregateChanged _ toStatus)) _ => some toStatus
  | .perform (.emit (.subsystemChanged ..)) next => announces (next ())
  | _ => none

/-- What the rest of a call announces is decided under the lock and announced once. -/
def AnnouncedOnce : Program HealthSig HealthResult → Prop
  | .perform (.update _ _ prevAggregate) next => ∀ outcome : ReportOutcome,
      announces (next outcome) =
        if outcome.subsystemChanged ∧ outcome.newAggregate ≠ prevAggregate then
          some outcome.newAggregate
        else none
  | .perform (.emit (.aggregateChanged ..)) next => announces (next ()) = none
  | .perform (.emit (.subsystemChanged ..)) _ => True
  | .perform .loadAggregate next => ∀ a, announces (next a) = none
  | .perform .snapshot next => ∀ a, announces (next a) = none
  | .perform (.subsystem _) next => ∀ a, announces (next a) = none
  | .done _ => True

theorem healthBody_announces (k : HealthCall) : announces (healthBody true k) = none := by
  cases k <;> rfl

theorem healthBody_announcedOnce (k : HealthCall) :
    (healthBody true k).Everywhere AnnouncedOnce := by
  cases k with
  | report subsystem status =>
      refine ⟨fun _ => rfl, fun prevAggregate => ⟨fun outcome => ?_, fun outcome => ?_⟩⟩
      · by_cases hChanged : outcome.subsystemChanged
        · by_cases hNew : outcome.newAggregate = prevAggregate
          · simp [hChanged, hNew, Program.bind]
            rfl
          · simp [hChanged, hNew, Program.bind]
            rfl
        · simp [hChanged, Program.bind]
          rfl
      · by_cases hChanged : outcome.subsystemChanged
        · by_cases hNew : outcome.newAggregate = prevAggregate
          · simp [hChanged, hNew, Program.bind]
            exact ⟨trivial, fun _ => trivial⟩
          · simp [hChanged, hNew, Program.bind]
            exact ⟨trivial, fun _ => ⟨rfl, fun _ => trivial⟩⟩
        · simp [hChanged, Program.bind]
          trivial
  | snapshot => exact ⟨fun _ => rfl, fun _ => trivial⟩
  | aggregate => exact ⟨fun _ => rfl, fun _ => trivial⟩
  | subsystem name => exact ⟨fun _ => rfl, fun _ => trivial⟩

/-- The aggregate that a record announces. -/
def announced : HealthRecord → Option HealthStatus
  | .emitted (.aggregateChanged _ toStatus) => some toStatus
  | _ => none

/-- The aggregate as the registry holds it and as its observers see it. -/
def aggregateDisplay (Thread : Type) :
    Display HealthSig Thread HealthInner HealthRecord HealthResult HealthStatus :=
  ⟨fun h => h.aggregate.load, .healthy, announced, announces⟩

/-- A report repeats what its subsystem has on record, and announces nothing, but raises
the aggregate over the value that it read. -/
def RaisesSilently (h : HealthInner) (subsystem : String) (status prevAggregate : HealthStatus) : Prop :=
  h.subsystems.lookup subsystem = some status ∧ status > prevAggregate

section Step

variable {Thread : Type} [DecidableEq Thread] {c c' : HealthConfig Thread}
  {label : Label HealthSig Thread HealthCall}

/-- The condition on a step: an announcement says what the aggregate is, or another call
has yet to say it; and a report that repeats what its subsystem has on record, and so
announces nothing, does not raise the aggregate to what nobody has been or will be told. -/
def AnnouncedRight (c : HealthConfig Thread) : Label HealthSig Thread HealthCall → Prop
  | .op t (.emit (.aggregateChanged _ toStatus)) _ =>
    toStatus = c.world.shared.aggregate.load ∨
      (aggregateDisplay Thread).AwaitedBesides c t c.world.shared.aggregate.load
  | .op t (.update subsystem status prevAggregate) _ =>
    RaisesSilently c.world.shared subsystem status prevAggregate →
      (aggregateDisplay Thread).shown c.world.trace = status ∨
        (aggregateDisplay Thread).AwaitedBesides c t status
  | _ => True

/-- An observer who knows the announcements only knows the aggregate. -/
def ObserversRight (c : HealthConfig Thread) : Prop :=
  c.Quiescent → lastShown announced c.world.trace = some c.world.shared.aggregate.load ∨
    c.world.shared.aggregate.load = .healthy ∧ lastShown announced c.world.trace = none

/-- Any report but one that raises silently announces the aggregate that it stores. -/
theorem update_announced {h : HealthInner} {subsystem : String} {status prevAggregate : HealthStatus}
    {owed : Option HealthStatus}
    (hOwed : owed = if (h.update subsystem status prevAggregate).2.subsystemChanged ∧
        (h.update subsystem status prevAggregate).2.newAggregate ≠ prevAggregate then
      some (h.update subsystem status prevAggregate).2.newAggregate else none) :
    RaisesSilently h subsystem status prevAggregate ∧ owed = none ∧
        (h.update subsystem status prevAggregate).1.aggregate.load = status ∨
      ¬ RaisesSilently h subsystem status prevAggregate ∧
        (owed = some (h.update subsystem status prevAggregate).1.aggregate.load ∨
          owed = none ∧
            (h.update subsystem status prevAggregate).1.aggregate.load = h.aggregate.load) := by
  let decided := HealthInner.newAggregate (h.subsystems.insert subsystem status)
    (h.subsystems.lookup subsystem) status prevAggregate
  have hStored : (h.update subsystem status prevAggregate).1.aggregate.load =
      if decided ≠ prevAggregate then decided else h.aggregate.load := HealthInner.update_aggregate
  have hRaised : status > prevAggregate → decided = status := fun hUp => if_pos hUp
  by_cases hNew : decided = prevAggregate
  · rw [if_neg (not_not.mpr hNew)] at hStored
    have hNone : owed = none := hOwed.trans (if_neg fun hBoth => hBoth.2 hNew)
    refine Or.inr ⟨fun hSilent => ?_, Or.inr ⟨hNone, hStored⟩⟩
    exact absurd (hNew.symm.trans (hRaised hSilent.2)) (ne_of_lt hSilent.2)
  · rw [if_pos hNew] at hStored
    by_cases hSame : h.subsystems.lookup subsystem = some status
    · -- a rescan needs a status that changes, so nothing but a raise moves the aggregate
      have hUp : status > prevAggregate := by
        by_contra hLow
        refine hNew ((if_neg hLow).trans (if_neg fun hRescan => ?_))
        rw [hSame, Option.some.injEq] at hRescan
        exact (ne_of_lt hRescan.2) hRescan.1
      have hNone : owed = none := hOwed.trans (if_neg fun hBoth => by
        simp [HealthInner.update, hSame] at hBoth)
      exact Or.inl ⟨⟨hSame, hUp⟩, hNone, hStored.trans (hRaised hUp)⟩
    · have hChanged : (h.update subsystem status prevAggregate).2.subsystemChanged = true := by
        simp [HealthInner.update, hSame]
      rw [if_pos ⟨hChanged, hNew⟩] at hOwed
      exact Or.inr ⟨fun hSilent => hSame hSilent.1, Or.inl (hOwed.trans (congrArg some hStored.symm))⟩

theorem healthStep_announced_iff (reach : Reachable (HealthStep Thread true) (.fresh Thread) c)
    (hGood : (aggregateDisplay Thread).Current c) (h : HealthStep Thread true c label c') :
    (aggregateDisplay Thread).Current c' ↔ AnnouncedRight c label := by
  cases h with
  | @call t k hIdle => exact iff_of_true (hGood.call hIdle (healthBody_announces k)) trivial
  | @ret t k r hAt => exact iff_of_true (hGood.ret hAt rfl) trivial
  | @op t k o next a shared hAt hExec =>
      have hShape := (everywhere_of_reachable healthBody_announcedOnce reach t k _ hAt).here
      cases o with
      | update subsystem status prevAggregate =>
          obtain ⟨rfl, rfl⟩ : a = (c.world.shared.update subsystem status prevAggregate).2 ∧
              (c.world.shared.update subsystem status prevAggregate).1 = shared := by
            simpa [healthMachine] using hExec
          rcases update_announced (hShape (c.world.shared.update subsystem status prevAggregate).2) with
            ⟨hSilent, hNone, hRaised⟩ | ⟨hLoud, hOwes | ⟨hNone, hKept⟩⟩
          · have hHeld : (aggregateDisplay Thread).held
                (c.world.shared.update subsystem status prevAggregate).1 = status := hRaised
            apply (Display.current_settled_iff hNone).trans
            rw [hHeld]
            exact ⟨fun hTold _ => hTold, fun hTold => hTold hSilent⟩
          · exact iff_of_true (Display.current_of_owes hOwes) fun hSilent => absurd hSilent hLoud
          · exact iff_of_true (hGood.op hAt rfl hKept hNone) fun hSilent => absurd hSilent hLoud
      | emit event =>
          obtain rfl := Option.some.inj hExec
          cases event with
          | aggregateChanged fromStatus toStatus => exact Display.current_settled_iff hShape
          | subsystemChanged subsystem fromStatus toStatus =>
              exact iff_of_true (hGood.op hAt rfl rfl rfl) trivial
      | loadAggregate =>
          obtain ⟨-, rfl⟩ : a = c.world.shared.aggregate.load ∧ c.world.shared = shared := by
            simpa [healthMachine] using hExec
          exact iff_of_true (hGood.op hAt rfl rfl (hShape a)) trivial
      | snapshot =>
          obtain ⟨-, rfl⟩ : a = c.world.shared.snapshot ∧ c.world.shared = shared := by
            simpa [healthMachine] using hExec
          exact iff_of_true (hGood.op hAt rfl rfl (hShape a)) trivial
      | subsystem name =>
          obtain ⟨-, rfl⟩ : a = c.world.shared.subsystems.lookup name ∧ c.world.shared = shared := by
            simpa [healthMachine] using hExec
          exact iff_of_true (hGood.op hAt rfl rfl (hShape a)) trivial

end Step

section Runs

variable {Thread : Type} [DecidableEq Thread] {labels : List (Label HealthSig Thread HealthCall)}
  {finish : HealthConfig Thread}

omit [DecidableEq Thread] in
theorem fresh_announced : (aggregateDisplay Thread).Current (HealthConfig.fresh Thread) := Or.inl rfl

/-- The runs along which the aggregate is always known or yet to be announced are exactly
those whose steps all meet the condition. -/
theorem announced_runs_iff :
    Runs (Within (HealthStep Thread true) (aggregateDisplay Thread).Current) (.fresh Thread) labels finish ↔
      Runs (Restrict (HealthStep Thread true) AnnouncedRight) (.fresh Thread) labels finish :=
  runs_within_iff_restrict _ (Reachable (HealthStep Thread true) (.fresh Thread)) fresh_announced
    (Reachable.refl _) (fun _ _ _ reach hStep => reach.tail hStep)
    fun _ _ _ reach hGood hStep => healthStep_announced_iff reach hGood hStep

/-- Such runs leave observers right whenever no report is in progress. -/
theorem observers_right_iff (Thread : Type) [DecidableEq Thread]
    (labels : List (Label HealthSig Thread HealthCall)) (finish : HealthConfig Thread) :
    (Runs (Within (HealthStep Thread true) (aggregateDisplay Thread).Current) (.fresh Thread) labels
        finish ↔
      Runs (Restrict (HealthStep Thread true) AnnouncedRight) (.fresh Thread) labels finish) ∧
    (Runs (Restrict (HealthStep Thread true) AnnouncedRight) (.fresh Thread) labels finish →
      ObserversRight finish) :=
  ⟨announced_runs_iff, fun run =>
    ((announced_runs_iff.mpr run).within_good fresh_announced).seen⟩

/-- One report of a fresh registry leaves observers right. -/
theorem observers_right_after_report : ∃ c : HealthConfig Bool, c.Quiescent ∧
    lastShown announced c.world.trace = some .degraded ∧ ObserversRight c := by
  have hCall : Runs (Restrict (HealthStep Bool true) AnnouncedRight) (.fresh Bool)
      [.call false (.report "storage" .degraded)] _ := Runs.single ⟨Step.call rfl, trivial⟩
  have hRead : Runs (Restrict (HealthStep Bool true) AnnouncedRight) (.fresh Bool)
      (_ ++ [.op false HealthOp.loadAggregate HealthStatus.healthy]) _ :=
    Runs.succ hCall ⟨Step.op rfl rfl, trivial⟩
  have hUpdate : Runs (Restrict (HealthStep Bool true) AnnouncedRight) (.fresh Bool)
      (_ ++ [.op false (HealthOp.update "storage" .degraded .healthy)
        (⟨true, none, .degraded⟩ : ReportOutcome)]) _ :=
    Runs.succ hRead ⟨Step.op rfl rfl, fun hSilent => by cases hSilent.1⟩
  have hChange : Runs (Restrict (HealthStep Bool true) AnnouncedRight) (.fresh Bool)
      (_ ++ [.op false (HealthOp.emit (.subsystemChanged "storage" .unknown .degraded)) ()]) _ :=
    Runs.succ hUpdate ⟨Step.op rfl rfl, trivial⟩
  have hAnnounce : Runs (Restrict (HealthStep Bool true) AnnouncedRight) (.fresh Bool)
      (_ ++ [.op false (HealthOp.emit (.aggregateChanged .healthy .degraded)) ()]) _ :=
    Runs.succ hChange ⟨Step.op rfl rfl, Or.inl rfl⟩
  have run : Runs (Restrict (HealthStep Bool true) AnnouncedRight) (.fresh Bool)
      (_ ++ [.ret false]) _ := Runs.succ hAnnounce ⟨Step.ret rfl, trivial⟩
  exact ⟨_, fun t => by cases t <;> rfl, rfl, (observers_right_iff Bool _ _).2 run⟩

/-- Thread `false` raises the aggregate to `Degraded` and pauses before it announces it,
thread `true` then reports `Critical` in full: the last that observers hear is `Degraded`. -/
theorem observers_left_behind : ¬ ∀ c : HealthConfig Bool,
    Reachable (HealthStep Bool true) (.fresh Bool) c → ObserversRight c := by
  intro hClaim
  obtain ⟨c, hRun, hQuiet, hCell, hLast⟩ : ∃ c : HealthConfig Bool,
      schedule (healthMachine Bool) (healthBody true) healthAnswer (HealthConfig.fresh Bool)
        [.call false (.report "storage" .degraded), .go false, .go false, .go false,
          .call true (.report "network" .critical), .go true, .go true, .go true, .go true,
          .ret true, .go false, .ret false] = some c ∧
      c.Quiescent ∧ c.world.shared.aggregate.load = .critical ∧
      lastShown announced c.world.trace = some .degraded :=
    ⟨_, rfl, fun t => by cases t <;> rfl, rfl, rfl⟩
  have hRight := hClaim c (schedule_reachable hRun) hQuiet
  rw [hCell, hLast] at hRight
  revert hRight
  decide

end Runs

end ServiceKernel
