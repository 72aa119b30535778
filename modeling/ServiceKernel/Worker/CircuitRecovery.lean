import ServiceKernel.Worker.CircuitSteps

/-! An open breaker recovers through its time stamp. The state and the stamp are written
in separate steps, so a success may wipe the stamp of a breaker that opened meanwhile. -/
namespace ServiceKernel

open Interleaving Execution

section Stamps

/-- A store of `Open` is followed by its stamp, and a clear of the stamp is not followed
by one. -/
def Stamps : Program CircuitSig CircuitState → Prop
  | .perform (.storeState .opened) next => ∃ now rest, next () = .perform (.stampOpened now) rest
  | .perform .clearOpened next => ∀ now rest, next () ≠ .perform (.stampOpened now) rest
  | _ => True

variable {policy : CircuitPolicy} {now : Instant}

theorem stamps_trip : (CircuitSteps.trip now).Everywhere Stamps :=
  ⟨⟨now, _, rfl⟩, fun _ => ⟨trivial, fun _ => trivial⟩⟩

theorem stamps_count : (CircuitSteps.count policy now).Everywhere Stamps := by
  refine ⟨trivial, fun failures => ?_⟩
  show (if policy.failureThreshold ≤ failures + 1 then CircuitSteps.trip now
    else pure .closed : Program CircuitSig CircuitState).Everywhere Stamps
  split_ifs
  · exact stamps_trip
  · trivial

theorem stamps_recordFailure : (CircuitSteps.recordFailure policy).Everywhere Stamps := by
  refine ⟨trivial, fun now => ⟨trivial, fun state => ?_⟩⟩
  cases state with
  | halfOpen => exact stamps_trip
  | opened => trivial
  | closed =>
      refine ⟨trivial, fun inWindow => ?_⟩
      cases inWindow with
      | true => exact stamps_count
      | false => exact ⟨trivial, fun _ => stamps_count⟩

theorem stamps_recordSuccess : CircuitSteps.recordSuccess.Everywhere Stamps :=
  ⟨trivial, fun _ => ⟨trivial, fun _ => ⟨fun _ _ h => (by cases h), fun _ => ⟨trivial, fun _ => trivial⟩⟩⟩⟩

theorem stamps_tick : (CircuitSteps.tick policy).Everywhere Stamps := by
  refine ⟨trivial, fun state => ?_⟩
  show (if state ≠ .opened then _ else _ : Program CircuitSig CircuitState).Everywhere Stamps
  split_ifs
  · exact ⟨trivial, fun _ => trivial⟩
  · refine ⟨trivial, fun now => ⟨trivial, fun openedAt => ?_⟩⟩
    cases openedAt with
    | none => trivial
    | some t =>
        show (if _ then _ else _ : Program CircuitSig CircuitState).Everywhere Stamps
        split_ifs
        · exact ⟨trivial, fun _ => trivial⟩
        · trivial

theorem stamps_body (policy : CircuitPolicy) (k : CircuitMethod) :
    (k.body policy).Everywhere Stamps := by
  cases k with
  | recordFailure => exact stamps_recordFailure
  | recordSuccess => exact stamps_recordSuccess
  | tick => exact stamps_tick

end Stamps

section Recovery

variable {Thread : Type} {policy : CircuitPolicy} {clock : Instant}
  {c c' : CircuitConfig Thread} {label : Label CircuitSig Thread CircuitMethod}
  {labels : List (Label CircuitSig Thread CircuitMethod)}

/-- The thread has stored `Open` and stamps it next. -/
def AboutToStamp (c : CircuitConfig Thread) (t : Thread) : Prop :=
  ∃ k now rest, c.threads t = .running k (.perform (.stampOpened now) rest)

/-- An open breaker is stamped, or about to be. -/
def Recoverable (c : CircuitConfig Thread) : Prop :=
  c.breaker.state = .opened → c.breaker.openedAt.isSome ∨ ∃ t, AboutToStamp c t

/-- A step that clears the stamp finds the breaker not open, or about to be stamped. -/
def ClearsInTime (c : CircuitConfig Thread) : Label CircuitSig Thread CircuitMethod → Prop
  | .op _ .clearOpened _ => c.breaker.state = .opened → ∃ t, AboutToStamp c t
  | _ => True

variable [DecidableEq Thread]

theorem AboutToStamp.other {t : Thread} {status : Status CircuitSig CircuitMethod CircuitState}
    {w : World Thread (Clocked CircuitBreaker) (Deed CircuitSig)} (h : AboutToStamp c t)
    {u : Thread} (hne : t ≠ u) : AboutToStamp ⟨w, Function.update c.threads u status⟩ t := by
  obtain ⟨k, now, rest, hRun⟩ := h
  exact ⟨k, now, rest, by simpa [hne] using hRun⟩

/-- Whether a step keeps an open breaker recoverable is decided by whether it clears the
stamp in time. -/
theorem recoverable_decides
    (hStamps : ∀ t k p, c.threads t = .running k p → p.Everywhere Stamps) (h : Recoverable c)
    (hStep : Step (circuitMachine Thread) (CircuitMethod.body policy) c label c') :
    Recoverable c' ↔ ClearsInTime c label := by
  cases hStep with
  | @call t k hIdle =>
      refine ⟨fun _ => trivial, fun _ hOpened => ?_⟩
      refine (h hOpened).imp id fun ⟨u, hAbout⟩ => ⟨u, hAbout.other ?_⟩
      rintro rfl
      obtain ⟨k, now, rest, hRun⟩ := hAbout
      rw [hIdle] at hRun
      cases hRun
  | @ret t k r hDone =>
      refine ⟨fun _ => trivial, fun _ hOpened => ?_⟩
      refine (h hOpened).imp id fun ⟨u, hAbout⟩ => ⟨u, hAbout.other ?_⟩
      rintro rfl
      obtain ⟨k, now, rest, hRun⟩ := hAbout
      rw [hDone] at hRun
      cases hRun
  | @op t k o next a shared hRun hExec =>
      have hApply := circuit_applies hExec
      have hState := congrArg CircuitBreaker.state hApply
      have hAt := congrArg CircuitBreaker.openedAt hApply
      have hStill : (∀ now, o ≠ .stampOpened now) → (∃ u, AboutToStamp c u) → ∃ u, AboutToStamp
          ⟨(circuitMachine Thread).after c.world t o a shared,
            Function.update c.threads t (.running k (next a))⟩ u := by
        rintro hNo ⟨u, hAbout⟩
        refine ⟨u, hAbout.other ?_⟩
        rintro rfl
        obtain ⟨k', now, rest, hThere⟩ := hAbout
        rw [hRun] at hThere
        cases hThere
        exact hNo now rfl
      cases o with
      | storeState state =>
          refine ⟨fun _ => trivial, fun _ hOpened => Or.inr ⟨t, ?_⟩⟩
          obtain rfl : state = .opened := hState.symm.trans hOpened
          obtain ⟨now, rest, hNext⟩ := (hStamps t k _ hRun).here
          exact ⟨k, now, rest, by simp [← hNext]⟩
      | stampOpened now => exact ⟨fun _ => trivial, fun _ _ => Or.inl (congrArg Option.isSome hAt)⟩
      | clearOpened =>
          refine ⟨fun hAfter hOpened => ?_, fun hInTime hOpened => Or.inr (hStill (fun _ h => by cases h) ?_)⟩
          · rcases hAfter (hState.trans hOpened) with hSome | ⟨u, k', now, rest, hThere⟩
            · have hNone : shared.state.openedAt.isSome = false := congrArg Option.isSome hAt
              exact Bool.noConfusion (hSome.symm.trans hNone)
            · refine ⟨u, k', now, rest, ?_⟩
              rcases eq_or_ne u t with rfl | hne
              · simp only [Function.update_self, Status.running.injEq] at hThere
                exact absurd hThere.2 ((hStamps u k _ hRun).here now rest)
              · simpa [hne] using hThere
          · exact hInTime (hState.symm.trans hOpened)
      | _ =>
          refine ⟨fun _ => trivial, fun _ hOpened => ?_⟩
          refine (h (hState.symm.trans hOpened)).imp (fun hSome => ?_) (hStill fun _ h => by cases h)
          exact (congrArg Option.isSome hAt).trans hSome

/-- The answer an operation gives when it reads the clock where it stands. -/
def circuitAnswer (_ : Thread) (o : CircuitOp) (s : Clocked CircuitBreaker) : CircuitSig.Ans o :=
  match o with
  | .now => s.clock
  | .loadState => s.state.state
  | .touchFailure now => s.state.inWindow now
  | .addFailure => s.state.failures
  | .readOpened => s.state.openedAt
  | .resetFailures => ()
  | .storeState _ => ()
  | .stampOpened _ => ()
  | .clearOpened => ()
  | .clearFailure => ()

theorem policy_of_steps (reach : Reachable (Step (circuitMachine Thread) (CircuitMethod.body policy))
    (CircuitConfig.new Thread policy clock) c) : c.breaker.policy = policy := by
  refine reach.invariant (fun c : CircuitConfig Thread => c.breaker.policy = policy) rfl
    fun c label c' h hStep => ?_
  cases hStep with
  | call hIdle => exact h
  | @op t k o next a shared hRun hExec =>
      have hSame := congrArg CircuitBreaker.policy (circuit_applies hExec)
      exact hSame.trans ((CircuitOp.applied_policy _).trans h)
  | ret hDone => exact h

/-- One failure opens the breaker. -/
def CircuitPolicy.hair : CircuitPolicy where
  failureThreshold := 1
  failureWindow := .fromNanos 10
  openDuration := .fromNanos 10

/-- The runs that keep the breaker recoverable are those that clear no stamp of an open
breaker too late, and in these a breaker that is open at rest is stamped, so that a tick
opens a trial once the open duration is over. -/
theorem open_recovers (policy : CircuitPolicy) (clock : Instant)
    (labels : List (Label CircuitSig Thread CircuitMethod)) (c : CircuitConfig Thread) :
    (Runs (Within (Step (circuitMachine Thread) (CircuitMethod.body policy)) Recoverable)
        (CircuitConfig.new Thread policy clock) labels c ↔
      Runs (Restrict (Step (circuitMachine Thread) (CircuitMethod.body policy)) ClearsInTime)
        (CircuitConfig.new Thread policy clock) labels c) ∧
    (Runs (Restrict (Step (circuitMachine Thread) (CircuitMethod.body policy)) ClearsInTime)
        (CircuitConfig.new Thread policy clock) labels c →
      c.Quiescent → c.breaker.state = .opened → ∃ since, c.breaker.openedAt = some since ∧
        ∀ t r w, Solo (circuitMachine Thread) t (CircuitSteps.tick policy) c.world r w →
          since + policy.openDuration.nanos ≤ w.shared.clock →
          r = .halfOpen ∧ w.shared.state.state = .halfOpen) := by
  have hIff : Runs (Within (Step (circuitMachine Thread) (CircuitMethod.body policy)) Recoverable)
        (CircuitConfig.new Thread policy clock) labels c ↔
      Runs (Restrict (Step (circuitMachine Thread) (CircuitMethod.body policy)) ClearsInTime)
        (CircuitConfig.new Thread policy clock) labels c := by
    refine runs_within_iff_restrict Recoverable
      (Reachable (Step (circuitMachine Thread) (CircuitMethod.body policy))
        (CircuitConfig.new Thread policy clock))
      (fun hOpened => by cases hOpened) (.refl _) (fun _ _ _ => .tail) ?_
    intro s label s' reach hGood hStep
    exact recoverable_decides (everywhere_of_reachable (stamps_body policy) reach) hGood hStep
  refine ⟨hIff, fun run hQuiet hOpened => ?_⟩
  have reach := (run.mono fun _ _ _ => And.left).reachable
  have hPolicy : c.breaker.policy = policy := policy_of_steps reach
  have hGood := (hIff.mpr run).within_good fun hOpened => by cases hOpened
  rcases hGood hOpened with hSome | ⟨t, k, now, rest, hRun⟩
  · obtain ⟨since, hSince⟩ := Option.isSome_iff_exists.mp hSome
    refine ⟨since, hSince, fun t r w hSolo hDue => ?_⟩
    subst hPolicy
    obtain ⟨now, -, hShared, hNow, rfl⟩ := solo_tick hSolo
    rw [hNow hOpened] at hDue
    have hTick : c.breaker.tick now = { c.breaker with state := .halfOpen } := by
      have hOver : now.durationSince since ≥ c.breaker.policy.openDuration.nanos :=
        Nat.le_sub_of_add_le' hDue
      simp [CircuitBreaker.tick, hOpened, hSince, hOver]
    rw [hShared, hTick]
    exact ⟨rfl, rfl⟩
  · rw [hQuiet t] at hRun
    cases hRun

/-- A failure that opens the breaker on its own leaves it to recover. -/
theorem open_recovers_alone : ∃ (labels : List (Label CircuitSig Bool CircuitMethod))
    (c : CircuitConfig Bool),
    Runs (Restrict (Step (circuitMachine Bool) (CircuitMethod.body .hair)) ClearsInTime)
      (CircuitConfig.new Bool .hair 0) labels c ∧
    c.breaker.state = .opened ∧ ∃ since, c.breaker.openedAt = some since := by
  have hRun : ∃ c : CircuitConfig Bool,
      Runs (Restrict (Step (circuitMachine Bool) (CircuitMethod.body .hair)) ClearsInTime)
        (CircuitConfig.new Bool .hair 0) [.call true .recordFailure, .op true .now 0,
          .op true .loadState .closed, .op true (.touchFailure 0) false,
          .op true .resetFailures (), .op true .addFailure 0,
          .op true (.storeState .opened) (), .op true (.stampOpened 0) (), .ret true] c ∧
      c.threads false = .idle ∧ c.threads true = .idle ∧ c.breaker.state = .opened := by
    refine ⟨_, .cons ⟨.call rfl, trivial⟩ <| .cons ⟨.op rfl rfl, trivial⟩ <|
      .cons ⟨.op rfl rfl, trivial⟩ <| .cons ⟨.op rfl rfl, trivial⟩ <|
      .cons ⟨.op rfl rfl, trivial⟩ <| .cons ⟨.op rfl rfl, trivial⟩ <|
      .cons ⟨.op rfl rfl, trivial⟩ <| .cons ⟨.op rfl rfl, trivial⟩ <|
      .cons ⟨.ret rfl, trivial⟩ (.zero _), ?_, ?_, ?_⟩
    · rfl
    · rfl
    · rfl
  obtain ⟨c, hRun, hFalse, hTrue, hOpened⟩ := hRun
  have hQuiet : c.Quiescent := fun t => by cases t <;> assumption
  obtain ⟨since, hSince, -⟩ := (open_recovers .hair 0 _ c).2 hRun hQuiet hOpened
  exact ⟨_, c, hRun, hOpened, since, hSince⟩

/-- A success that began in time wipes the stamp of the breaker that opens in between: it
stays open with no stamp. -/
theorem not_open_recovers :
    ¬ ∀ (policy : CircuitPolicy) (clock : Instant) (c : CircuitConfig Bool),
      Reachable (Step (circuitMachine Bool) (CircuitMethod.body policy))
        (CircuitConfig.new Bool policy clock) c →
      c.Quiescent → c.breaker.state = .opened → c.breaker.openedAt.isSome := by
  intro hClaim
  obtain ⟨c, hRun, hFalse, hTrue, hOpened, hNone⟩ : ∃ c : CircuitConfig Bool,
      schedule (circuitMachine Bool) (CircuitMethod.body .hair) circuitAnswer (CircuitConfig.new Bool .hair 0)
      ([.call false .recordSuccess, .go false, .go false, .call true .recordFailure] ++
        List.replicate 7 (.go true) ++ [.ret true, .go false, .go false, .ret false]) = some c ∧
      c.threads false = .idle ∧ c.threads true = .idle ∧
      c.world.shared.state.state = .opened ∧ c.world.shared.state.openedAt = none :=
    ⟨_, rfl, rfl, rfl, rfl, rfl⟩
  have hQuiet : c.Quiescent := fun t => by cases t <;> assumption
  have hSome := hClaim .hair 0 c (schedule_reachable hRun) hQuiet hOpened
  rw [show c.breaker.openedAt = none from hNone] at hSome
  cases hSome

end Recovery

end ServiceKernel
