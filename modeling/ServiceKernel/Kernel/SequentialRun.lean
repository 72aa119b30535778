import ServiceKernel.Kernel.Completion

/-! A call of `run` on a fresh kernel against its reference: which callbacks it makes and
in which order, what it returns and the state it leaves. -/
namespace ServiceKernel

open Interleaving Execution

variable {Thread : Type}

/-- The start or the end of a callback. -/
def KernelRecord.isCall : KernelRecord → Bool
  | .started .. => true
  | .finished .. => true
  | _ => false

/-- The starts and ends of callbacks, in order and whoever made them. -/
def callsOf (trace : List (Thread × KernelRecord)) : List KernelRecord :=
  (trace.map Prod.snd).filter KernelRecord.isCall

/-- The callbacks have ended as the script says. -/
def Script.Followed (script : Script) (trace : List (Thread × KernelRecord)) : Prop :=
  ∀ t c name outcome, (t, .finished c name outcome) ∈ trace → outcome = script c name

namespace Stage

/-- The calls made so far at a stage, if the callbacks end by the script. -/
def calls (script : Script) (k : Kernel) (stage : Stage) : List KernelRecord :=
  let all := k.subsystems.length
  let made (c : Callback) (done : Nat) := script.calls c (k.subsystems.take done)
  let closed (loaded up : Nat) := script.calls .shutdown ((k.subsystems.take loaded).drop up).reverse
  let begun (c : Callback) (at' : Nat) :=
    (k.subsystems[at']?.map fun s => KernelRecord.started c s.name).toList
  match stage with
  | forward .boot done => made .boot done
  | calling .boot done => made .boot done ++ begun .boot done
  | recording .boot done => made .boot (done + 1)
  | broken .boot done => made .boot (done + 1)
  | failed .boot done => made .boot (done + 1)
  | forward .load done => made .boot all ++ made .load done
  | calling .load done => made .boot all ++ made .load done ++ begun .load done
  | recording .load done => made .boot all ++ made .load (done + 1)
  | broken .load done => made .boot all ++ made .load (done + 1)
  | failed .load done => made .boot all ++ made .load (done + 1) ++ closed done 0
  | closing rollback loaded up =>
    made .boot all ++ made .load (if rollback then loaded + 1 else loaded) ++ closed loaded up
  | callingShutdown rollback loaded up =>
    made .boot all ++ made .load (if rollback then loaded + 1 else loaded) ++
      closed loaded (up + 1) ++ begun .shutdown up
  | exec _ => made .boot all ++ made .load all
  | stopped => made .boot all ++ made .load all ++ closed all 0
  | _ => []

section Steps

variable {k : Kernel} {script : Script} {stage stage' : Stage} {c : Callback} {s : Subsystem}

theorem calls_take {done : Nat} (h : k.subsystems[done]? = some s) :
    script.calls c (k.subsystems.take (done + 1)) = script.calls c (k.subsystems.take done) ++
      [.started c s.name, .finished c s.name (script c s.name)] := by
  rw [List.take_add_one, h]
  exact Script.calls_concat

theorem calls_drop {loaded up : Nat} (h : k.subsystems[up]? = some s) (hUp : up < loaded) :
    script.calls c ((k.subsystems.take loaded).drop up).reverse =
      script.calls c ((k.subsystems.take loaded).drop (up + 1)).reverse ++
        [.started c s.name, .finished c s.name (script c s.name)] := by
  have hAt : (k.subsystems.take loaded)[up]? = some s := by
    rw [List.getElem?_take_of_lt hUp, h]
  obtain ⟨hLt, hHere⟩ := List.getElem?_eq_some_iff.mp hAt
  rw [List.drop_eq_getElem_cons hLt, hHere, List.reverse_cons]
  exact Script.calls_concat

theorem starts_calls (h : stage.starts k c s = some stage') :
    stage'.calls script k = stage.calls script k ++ [KernelRecord.started c s.name] := by
  cases starts_cases h with
  | forward hForward hNext =>
      cases c with
      | shutdown => exact absurd rfl hForward
      | boot | load => simp [calls, hNext]
  | closing hNext => simp [calls, hNext]

/-- The callback ends as the script says. -/
theorem finishes_calls (hValid : stage.Valid k)
    (h : stage.finishes k c s (script c s.name) = some stage') :
    stage'.calls script k =
      stage.calls script k ++ [KernelRecord.finished c s.name (script c s.name)] := by
  generalize hOutcome : script c s.name = outcome at h
  cases finishes_cases h with
  | ok hForward hNext | broken hForward hNext =>
      rw [← hOutcome]
      cases c with
      | shutdown => exact absurd rfl hForward
      | boot | load => simp [calls, hNext, calls_take hNext]
  | closing hNext =>
      rw [← hOutcome]
      simp [calls, hNext, calls_drop hNext hValid.1]

theorem moves_calls {toState : KernelState} (hValid : stage.Valid k)
    (h : stage.moves k toState = some stage') :
    stage'.calls script k = stage.calls script k := by
  cases moves_cases h with
  | booted | stopping => simp [calls]
  | loaded | bootFailed | loadFailed => rfl
  | stopped =>
      obtain rfl := hValid.2.2 rfl
      rfl

theorem records_calls {name : String} (h : stage.records k c name = some stage') :
    stage'.calls script k = stage.calls script k := by
  obtain ⟨done, hForward, -, rfl, rfl⟩ := records_cases h
  cases c with
  | shutdown => exact absurd rfl hForward
  | boot | load => rfl

theorem reads_calls {keys : List String} (h : stage.reads k keys = some stage') :
    stage'.calls script k = stage.calls script k := by
  unfold reads at h
  split at h
  · simp only [Option.ite_none_right_eq_some, Option.some.injEq] at h
    obtain ⟨-, rfl⟩ := h
    simp [calls]
  · cases h

/-- The exec phase makes no calls. -/
theorem seesWorkers_calls {answer : Bool} (h : stage.seesWorkers answer = some stage') :
    stage'.calls script k = stage.calls script k := by
  unfold seesWorkers at h
  split at h
  · obtain rfl := Option.some.inj h
    rfl
  · cases h

theorem seesSignal_calls {answer : Bool} (h : stage.seesSignal answer = some stage') :
    stage'.calls script k = stage.calls script k := by
  unfold seesSignal at h
  split at h
  · obtain rfl := Option.some.inj h
    rfl
  · obtain rfl := Option.some.inj h
    rfl
  · cases h

theorem builds_calls {flavor : RuntimeFlavor} {result : Except String Unit}
    (h : stage.builds flavor result = some stage') :
    stage'.calls script k = stage.calls script k := by
  unfold builds at h
  split at h
  · obtain rfl := Option.some.inj h
    rfl
  · obtain rfl := Option.some.inj h
    rfl
  · obtain rfl := Option.some.inj h
    rfl
  · obtain rfl := Option.some.inj h
    rfl
  · cases h

theorem supervises_calls (h : stage.supervises = some stage') :
    stage'.calls script k = stage.calls script k := by
  unfold supervises at h
  split at h
  · obtain rfl := Option.some.inj h
    rfl
  · cases h

theorem coordinates_calls {o : CoordinatorOp} {a : CoordinatorSig.Ans o}
    (h : stage.coordinates k o a = some stage') :
    stage'.calls script k = stage.calls script k := by
  have hSequencing : ∀ {next : Stage}, (if stage = .exec .sequencing then some next else none) =
      some stage' → next = .exec .released ∨ next = stage →
      stage'.calls script k = stage.calls script k := by
    intro next hIf hNext
    simp only [Option.ite_none_right_eq_some, Option.some.injEq] at hIf
    obtain ⟨rfl, rfl⟩ := hIf
    rcases hNext with rfl | rfl <;> rfl
  cases o with
  | now | stdNow =>
      simp only [coordinates] at h
      split at h
      · obtain rfl := Option.some.inj h
        rfl
      · obtain rfl := Option.some.inj h
        rfl
      · cases h
  | markCompleted =>
      simp only [coordinates] at h
      split at h
      · obtain rfl := Option.some.inj h
        rfl
      · cases h
  | emit event => cases event with
    | shutdownCompleted => exact hSequencing h (Or.inl rfl)
    | transition | shutdownStarted => exact hSequencing h (Or.inr rfl)
  | takeHooks | startHook | finishHook => exact hSequencing h (Or.inr rfl)
  | signalToken | registerHook =>
      obtain rfl := Option.some.inj h
      rfl

/-- Every operation of the thread in charge adds to the calls what it adds to the history. -/
theorem next_calls {o : KernelOp} {a : KernelSig.Ans o} (hValid : stage.Valid k)
    (hEnds : ∀ c name outcome, kernelRecord o a = .finished c name outcome →
      outcome = script c name)
    (hNext : Position.next k (.inside stage) o a = some (.inside stage')) :
    stage'.calls script k =
      stage.calls script k ++ [kernelRecord o a].filter KernelRecord.isCall := by
  have hWithin : ∀ f : Stage → Option Stage, (Position.inside stage).within f =
      some (.inside stage') → f stage = some stage' := by
    intro f hSome
    simpa [Position.within] using hSome
  have hSilent : stage'.calls script k = stage.calls script k →
      (kernelRecord o a).isCall = false → stage'.calls script k =
        stage.calls script k ++ [kernelRecord o a].filter KernelRecord.isCall := by
    intro hSame hOther
    rw [hSame, List.filter_singleton, hOther]
    exact (List.append_nil _).symm
  cases o with
  | lifecycle o => cases o with
    | checkAndSet toState => cases a with
      | error e => simp [Position.next, Position.lifecycle] at hNext
      | ok move =>
          have hMove : stage.moves k toState = some stage' := by
            simpa [Position.next, Position.lifecycle] using hNext
          exact hSilent (moves_calls hValid hMove) rfl
    | emit | gauge | counter | snapshot =>
        obtain rfl := Position.inside.inj (Option.some.inj hNext)
        exact hSilent rfl rfl
  | coordinator o =>
      have hStep : stage.coordinates k o a = some stage' := by
        simpa [Position.next, Position.coordinator] using hNext
      exact hSilent (coordinates_calls hStep) rfl
  | startCallback c s => exact starts_calls (hWithin (Stage.starts k · c s) hNext)
  | finishCallback c s =>
      obtain rfl := hEnds c s.name a rfl
      exact finishes_calls hValid (hWithin (Stage.finishes k · c s _) hNext)
  | insertBooted name => exact hSilent (records_calls (hWithin (Stage.records k · .boot name) hNext)) rfl
  | insertLoaded name => exact hSilent (records_calls (hWithin (Stage.records k · .load name) hNext)) rfl
  | loadedKeys => exact hSilent (reads_calls (hWithin (Stage.reads k · a) hNext)) rfl
  | hasWorkers => exact hSilent (seesWorkers_calls (hWithin (Stage.seesWorkers · a) hNext)) rfl
  | signalRequested => exact hSilent (seesSignal_calls (hWithin (Stage.seesSignal · a) hNext)) rfl
  | buildRuntime flavor =>
      exact hSilent (builds_calls (hWithin (Stage.builds · flavor a) hNext)) rfl
  | takeWorkers | supervise workers =>
      exact hSilent (supervises_calls (hWithin Stage.supervises hNext)) rfl
  | _ =>
      obtain rfl := Position.inside.inj (Option.some.inj hNext)
      exact hSilent rfl rfl

end Steps

end Stage

section Follows

variable {k : Kernel} {script : Script} {c : Callback} {done : Nat} {e : KernelError}

/-- How `run` ends by the script, unless the exec phase failed. -/
def ScriptedRun (script : Script) (k : Kernel) (exit : RunExit) (q : Position) : Prop :=
  exit.execOk = true → ∃ stage, q = .inside stage ∧
    stage.calls script k = (referenceRun script k.subsystems).calls ∧
    exit.result = some (referenceRun script k.subsystems).result ∧
    stage.state = (referenceRun script k.subsystems).state

theorem referenceRun_boot (hBoot : script.attempt .boot k.subsystems =
      (k.subsystems.take (done + 1), some e)) :
    referenceRun script k.subsystems =
      ⟨script.calls .boot (k.subsystems.take (done + 1)), .error e, .failed⟩ := by
  rw [referenceRun, hBoot]

theorem referenceRun_load (hBoot : (script.attempt .boot k.subsystems).2 = none)
    (hLt : done < k.subsystems.length)
    (hLoad : script.attempt .load k.subsystems = (k.subsystems.take (done + 1), some e)) :
    referenceRun script k.subsystems =
      ⟨script.calls .boot k.subsystems ++ script.calls .load (k.subsystems.take (done + 1)) ++
        script.calls .shutdown (k.subsystems.take done).reverse, .error e, .failed⟩ := by
  have hLast : (k.subsystems.take (done + 1)).dropLast = k.subsystems.take done := by
    rw [List.dropLast_eq_take, List.length_take_of_le hLt, List.take_take]
    simp
  rw [referenceRun]
  split
  · rename_i hFailed
    rw [hFailed] at hBoot
    cases hBoot
  · rw [hLoad]
    simp only [hLast]

theorem referenceRun_ok (hBoot : (script.attempt .boot k.subsystems).2 = none)
    (hLoad : (script.attempt .load k.subsystems).2 = none) :
    referenceRun script k.subsystems =
      ⟨script.calls .boot k.subsystems ++ script.calls .load k.subsystems ++
        script.calls .shutdown k.subsystems.reverse,
        script.closingResult k.subsystems.reverse, .stopped⟩ := by
  rw [referenceRun]
  split
  · rename_i hFailed
    rw [hFailed] at hBoot
    cases hBoot
  · split
    · rename_i hFailed
      rw [hFailed] at hLoad
      cases hLoad
    · rfl

theorem unscripted_runExecPhase : (runExecPhase k).All KernelOp.Unscripted := by
  have hCoordinator : (onCoordinator (coordinatorShutdown k.shutdownGrace)).All
      KernelOp.Unscripted := Program.all_lift _ fun _ => trivial
  refine ⟨trivial, fun hasWorkers => ⟨trivial, fun requested => ?_⟩⟩
  simp only [Program.bind]
  split
  · refine ⟨trivial, fun _ => ⟨trivial, fun built => ?_⟩⟩
    cases built with
    | error e => trivial
    | ok u => exact hCoordinator.bind fun report => by cases report <;> trivial
  · refine ⟨trivial, fun built => ?_⟩
    cases built with
    | error e => trivial
    | ok u =>
        refine ⟨trivial, fun _ => ⟨trivial, fun _ => ⟨trivial, fun _ => ?_⟩⟩⟩
        apply hCoordinator.bind
        intro report
        cases report with
        | none => exact ⟨trivial, fun _ => trivial⟩
        | some report => exact ⟨trivial, fun _ => ⟨trivial, fun _ => trivial⟩⟩

theorem scripted_run (hNames : (k.subsystems.map Subsystem.name).Nodup) :
    (scripted script k).Follows (ScriptedRun script k) (run k) .outside := by
  apply (scripted_boot hNames).bind
  intro r q hEnd
  cases r with
  | error e =>
      obtain ⟨c, done, hLt, rfl, hAttempt, hPhase⟩ := hEnd
      intro _
      refine ⟨_, rfl, ?_⟩
      rcases hPhase with rfl | ⟨rfl, hBooted⟩
      · rw [referenceRun_boot hAttempt]
        exact ⟨rfl, rfl, rfl⟩
      · rw [referenceRun_load hBooted hLt hAttempt]
        refine ⟨?_, rfl, rfl⟩
        simp [Stage.calls]
  | ok u =>
      obtain ⟨hBooted, hLoaded, rfl⟩ := hEnd
      apply (scripted_of_all unscripted_runExecPhase follows_runExecPhase).bind
      intro r q hEnd
      cases r with
      | failed e =>
          intro hOk
          cases hOk
      | unwound =>
          intro hOk
          cases hOk
      | released report =>
          obtain rfl : q = .inside (.exec .released) := hEnd
          have hStop : (Stage.exec .released).moves k .stopping =
              some (.closing false k.subsystems.length k.subsystems.length) := rfl
          apply (scripted_move hStop).bind
          intro r q hQ
          obtain ⟨rfl, rfl⟩ := hQ
          apply scripted_runShutdownPhase.bind
          intro result q hQ
          obtain ⟨rfl, rfl⟩ := hQ
          have hStopped : (Stage.closing false k.subsystems.length 0).moves k .stopped =
              some .stopped := rfl
          apply (scripted_move hStopped).bind
          intro r q hQ
          obtain ⟨rfl, rfl⟩ := hQ
          intro _
          refine ⟨_, rfl, ?_⟩
          rw [referenceRun_ok hBooted hLoaded]
          refine ⟨?_, rfl, rfl⟩
          simp [Stage.calls]

end Follows

section System

variable [DecidableEq Thread] {k : Kernel} {b : KernelBuilder} {script : Script}

/-- The thread was granted all its transitions, as the first of `run` is on a fresh kernel. -/
def Unrefused (t : Thread) (trace : List (Thread × KernelRecord)) : Prop :=
  ∀ e, (t, .lifecycle (.refused e)) ∉ trace

/-- So far the callbacks have followed the script and the thread's transitions were granted. -/
def Script.Applies (script : Script) (t : Thread) (trace : List (Thread × KernelRecord)) : Prop :=
  script.Followed trace ∧ Unrefused t trace

omit [DecidableEq Thread] in
theorem Script.applies_nil {t : Thread} : script.Applies t [] :=
  ⟨(fun _ _ _ _ hMem => nomatch hMem), fun _ hMem => nomatch hMem⟩

omit [DecidableEq Thread] in
theorem Script.followed_concat {trace : List (Thread × KernelRecord)} {t : Thread} {r : KernelRecord}
    (h : script.Followed (trace ++ [(t, r)])) :
    script.Followed trace ∧ ∀ c name outcome, r = .finished c name outcome →
      outcome = script c name := by
  refine ⟨fun u c name outcome hMem => ?_, fun c name outcome hRecord => ?_⟩
  · exact h u c name outcome (List.mem_append_left _ hMem)
  · refine h t c name outcome (List.mem_append_right _ ?_)
    rw [hRecord]
    exact List.mem_singleton_self _

omit [DecidableEq Thread] in
/-- What the script says of a history it says of the answers in it. -/
theorem Script.applies_after {u t : Thread} {w : KernelWorld Thread} {o : KernelOp}
    {a : KernelSig.Ans o} {shared : KernelInner Thread}
    (h : script.Applies u ((kernelMachine Thread).after w t o a shared).trace) :
    script.Applies u w.trace ∧ (u = t → script.allows o a = true) := by
  obtain ⟨hFollowed, hGranted⟩ := h
  obtain ⟨hBefore, hEnds⟩ := followed_concat hFollowed
  refine ⟨⟨hBefore, fun e hMem => hGranted e (List.mem_append_left _ hMem)⟩, ?_⟩
  rintro rfl
  cases o with
  | finishCallback c s => exact decide_eq_true (hEnds c s.name a rfl)
  | lifecycle o => cases o with
    | checkAndSet toState => cases a with
      | error e =>
          exact absurd (List.mem_append_right _ (List.mem_singleton_self _)) (hGranted e)
      | ok move => rfl
    | _ => rfl
  | _ => rfl

def ScriptedReturn (script : Script) (k : Kernel) : KernelReturn → Position → Prop
  | .ran exit, q => ScriptedRun script k exit q
  | _, _ => True

omit [DecidableEq Thread] in
/-- Every move of the stage adds to the calls what it adds to the history. -/
theorem callsOf_after {stage stage' : Stage} {p : Position} {w : KernelWorld Thread} {t : Thread}
    {o : KernelOp} {a : KernelSig.Ans o} {shared : KernelInner Thread} (hValid : stage.Valid k)
    (hMove : StageMove k o a p stage stage')
    (h : script.Followed w.trace → callsOf w.trace = stage.calls script k)
    (hFollowed : script.Followed ((kernelMachine Thread).after w t o a shared).trace) :
    callsOf ((kernelMachine Thread).after w t o a shared).trace = stage'.calls script k := by
  obtain ⟨hBefore, hEnds⟩ := Script.followed_concat hFollowed
  have hTrace : callsOf ((kernelMachine Thread).after w t o a shared).trace =
      stage.calls script k ++ [kernelRecord o a].filter KernelRecord.isCall := by
    rw [← h hBefore]
    simp only [callsOf, Machine.after_trace, List.map_append, List.filter_append]
    rfl
  have hPlain : (kernelRecord o a).Plain → (kernelRecord o a).isCall = false := by
    intro hRecord
    cases hKind : kernelRecord o a <;> rw [hKind] at hRecord <;> first | rfl | exact hRecord.elim
  rw [hTrace]
  cases hMove with
  | aside _ hAside => simp [hPlain hAside]
  | begins _ hBegins => simp [hPlain hBegins, Stage.calls]
  | inside hNext => exact (Stage.next_calls hValid hEnds hNext).symm

/-- Every call of `run` is where the script leads it, and so are the calls made so far. -/
structure GoesByScript (script : Script) (k : Kernel) (pos : Thread → Position)
    (c : KernelConfig Thread) : Prop where
  follows : ∀ t p, c.threads t = .running .run p → script.Applies t c.world.trace →
    (scripted script k).Follows (ScriptedReturn script k) p (pos t)
  calls : ∃ stage, Orchestrated k stage pos c.world ∧
    (script.Followed c.world.trace → callsOf c.world.trace = stage.calls script k)

/-- Whatever other threads do meanwhile, a call of `run` goes by its reference. -/
theorem ran_of_reachable (hBuilt : k.WellFormed b) {clock : Instant} {c : KernelConfig Thread}
    (reach : Reachable (KernelStep Thread k) (KernelConfig.built Thread k clock) c) {t : Thread}
    {exit : RunExit} (hExit : c.ranExit t = some exit) (hOk : exit.execOk = true)
    (hApplies : script.Applies t c.world.trace) :
    callsOf c.world.trace = (referenceRun script k.subsystems).calls ∧
      exit.result = some (referenceRun script k.subsystems).result ∧
      c.world.shared.lifecycle.state = (referenceRun script k.subsystems).state := by
  have hBody : (scripted script k).Follows (ScriptedReturn script k) (kernelBody k .run) .outside :=
    (scripted_run hBuilt.distinct).bind fun _ _ hEnd => hEnd
  have hStep : ∀ pos c label pos' c', (orchestrationTypestate Thread hBuilt).Typed pos c →
      GoesByScript script k pos c → KernelStep Thread k c label c' →
      (orchestrationTypestate Thread hBuilt).Moves pos label pos' →
      (orchestrationTypestate Thread hBuilt).Typed pos' c' → GoesByScript script k pos' c' := by
    rintro pos c label pos' c' hTyped ⟨hFollows, stage, h, hCalls⟩ hTake hMoves -
    refine ⟨?_, ?_⟩
    · exact Typestate.restricted_step (fun t trace => script.Applies t trace) hBody
        (fun _ _ _ _ _ _ hAfter => Script.applies_after hAfter) hFollows hTake hMoves
    · obtain ⟨stage', hAfter, hChange⟩ := orchestrated_step hBuilt hTyped h hTake hMoves
      refine ⟨stage', hAfter, ?_⟩
      rcases hChange with ⟨rfl, hSame⟩ | ⟨t, o, a, shared, -, hMove, hWorld⟩
      · rw [hSame]
        exact hCalls
      · rw [hWorld]
        exact callsOf_after h.recorded.valid hMove hCalls
  have hStart : GoesByScript script k (fun _ => .outside) (KernelConfig.built Thread k clock) :=
    ⟨(fun _ _ hRun => nomatch hRun), .created, orchestrated_built k clock, fun _ => rfl⟩
  obtain ⟨pos, -, hFollows, stage, h, hCalls⟩ :=
    Typestate.typed_invariant (GoesByScript script k) (typed_built hBuilt clock) hStart hStep reach
  have hRun := KernelConfig.ranExit_eq_some.mp hExit
  obtain ⟨stage', hPos, hMade, hResult, hState⟩ := hFollows t _ hRun hApplies hOk
  obtain ⟨rfl, -⟩ := h.inside hPos
  exact ⟨(hCalls hApplies.1).trans hMade, hResult, h.recorded.state.trans hState⟩

omit [DecidableEq Thread] in
/-- What an allowed answer leaves in the history. -/
theorem Script.allows_record {o : KernelOp} {a : KernelSig.Ans o} (h : script.allows o a = true) :
    (∀ c name outcome, kernelRecord o a = .finished c name outcome → outcome = script c name) ∧
      ∀ e, kernelRecord o a ≠ .lifecycle (.refused e) := by
  cases o with
  | finishCallback c s =>
      have hOutcome : a = script c s.name := of_decide_eq_true h
      refine ⟨fun c' name outcome hRecord => ?_, fun e hRecord => nomatch hRecord⟩
      obtain ⟨rfl, rfl, rfl⟩ := KernelRecord.finished.inj hRecord
      exact hOutcome
  | lifecycle o => cases o with
    | checkAndSet toState => cases a with
      | error e => cases h
      | ok move => exact ⟨(fun _ _ _ hRecord => nomatch hRecord), fun _ hRecord => nomatch hRecord⟩
    | _ => exact ⟨(fun _ _ _ hRecord => nomatch hRecord), fun _ hRecord => nomatch hRecord⟩
  | _ => exact ⟨(fun _ _ _ hRecord => nomatch hRecord), fun _ hRecord => nomatch hRecord⟩

omit [DecidableEq Thread] in
/-- Where the environment goes by the script the history follows it. -/
theorem Script.applies_solo {α : Type} {t : Thread} {program : Program KernelSig α}
    {w w' : KernelWorld Thread} {r : α} (h : script.Applies t w.trace)
    (hSolo : Solo (scriptedMachine Thread script) t program w r w') :
    script.Applies t w'.trace := by
  obtain ⟨hFollowed, hGranted⟩ := h
  refine ⟨fun u c name outcome hMem => ?_, fun e hMem => ?_⟩
  · rcases hSolo.unrestrict.2 _ hMem with hOld | ⟨o, a, hAllows, hNew⟩
    · exact hFollowed u c name outcome hOld
    · exact (allows_record hAllows).1 c name outcome (Prod.mk.inj hNew).2.symm
  · rcases hSolo.unrestrict.2 _ hMem with hOld | ⟨o, a, hAllows, hNew⟩
    · exact hGranted e hOld
    · exact (allows_record hAllows).2 e (Prod.mk.inj hNew).2.symm

/-- However the callbacks are to end, a call of `run` on a fresh kernel can end so. -/
theorem ran_exists (hSound : script.Sound k.subsystems) {clock : Instant}
    (hEnds : k.workers = [] ∨ (clock.checkedAdd k.shutdownGrace).isSome = true) (t : Thread) :
    ∃ c exit, Reachable (KernelStep Thread k) (KernelConfig.built Thread k clock) c ∧
      c.ranExit t = some exit ∧ exit.execOk = true ∧ script.Applies t c.world.trace := by
  have hSignal : CanFinish (scriptedMachine Thread script) t
      (fun _ s' => s' = { KernelInner.new k clock with signalled := true }) (kernelBody k .shutdown)
      (KernelConfig.built Thread k clock).world.shared := canFinish_op () rfl rfl rfl
  obtain ⟨_, w, hFirst, hWorld⟩ := hSignal.solo
  have hFirstApplies : script.Applies t w.trace :=
    Script.applies_solo Script.applies_nil hFirst
  have hExec : ExecEnds k w.shared := by
    rw [hWorld]
    rcases hEnds with hWorkers | hDeadline
    · exact Or.inl ⟨hWorkers, rfl⟩
    · exact Or.inr hDeadline
  have hRun : CanFinish (scriptedMachine Thread script) t
      (fun exit s' => exit.execOk = true ∧ s'.lifecycle.state.isTerminal = true) (run k) w.shared := by
    refine canFinish_run hSound ?_ ?_ ?_ ?_ fun _ _ => hExec
    · rw [hWorld]
      exact fun _ => rfl
    · rw [hWorld]
      rfl
    · rw [hWorld]
    · rw [hWorld]
      rfl
  obtain ⟨exit, w', hSecond, hOk, -⟩ := hRun.solo
  have hCall : Solo (kernelMachine Thread) t (kernelBody k .run) w (.ran exit) w' :=
    hSecond.unrestrict.1.bind (.done _ _)
  have hBegin : KernelStep Thread k (Config.start w) (.call t .run) _ := Step.call rfl
  refine ⟨_, exit, (hFirst.unrestrict.1.complete_call.tail hBegin).trans
    (hCall.reachable _ (Function.update_self ..)), ?_, hOk, Script.applies_solo hFirstApplies hSecond⟩
  exact KernelConfig.ranExit_eq_some.mpr (Function.update_self ..)

/-- A call of `run` that took a fresh kernel out of `Created` and whose exec phase returned
`Ok` makes exactly the calls of its reference, whatever other threads do meanwhile. However
the callbacks are to end, there is such a call, unless supervised workers meet a clock
whose readings run out. -/
theorem run_eq_reference (hBuild : b.build = .ok k) (script : Script) (clock : Instant)
    (t : Thread) :
    (∀ c exit, Reachable (KernelStep Thread k) (KernelConfig.built Thread k clock) c →
      c.ranExit t = some exit → exit.execOk = true → script.Applies t c.world.trace →
      callsOf c.world.trace = (referenceRun script k.subsystems).calls ∧
        exit.result = some (referenceRun script k.subsystems).result ∧
        c.world.shared.lifecycle.state = (referenceRun script k.subsystems).state) ∧
    (script.Sound k.subsystems →
      k.workers = [] ∨ (clock.checkedAdd k.shutdownGrace).isSome = true →
      ∃ c exit, Reachable (KernelStep Thread k) (KernelConfig.built Thread k clock) c ∧
        c.ranExit t = some exit ∧ exit.execOk = true ∧ script.Applies t c.world.trace) := by
  refine ⟨fun c exit reach hExit hOk hApplies => ?_, fun hSound hEnds => ?_⟩
  · exact ran_of_reachable (build_wellFormed hBuild) reach hExit hOk hApplies
  · exact ran_exists hSound hEnds t

/-- The consumer's subsystem fails to load, and `run` returns its error. -/
theorem run_eq_reference_rollback :
    ∃ k, ((KernelBuilder.new "service").withSubsystem "db" []).build = .ok k ∧
      ∃ (c : KernelConfig Unit) (exit : RunExit), c.ranExit () = some exit ∧
        exit.result = some (.error (.subsystem .subsystemBootFailed "db" (panicMessage none))) ∧
        c.world.shared.lifecycle.state = .failed := by
  let script : Script := fun c name => if c = .load ∧ name = "db" then .panicked none else .ok
  let asked (k : Kernel) : Bool :=
    k.workers.isEmpty && (k.subsystems.all fun s => !s.builtin || s.name ≠ "db") &&
      (referenceRun script k.subsystems).state = .failed &&
      (referenceRun script k.subsystems).result =
        .error (.subsystem .subsystemBootFailed "db" (panicMessage none))
  have hAsked : ((KernelBuilder.new "service").withSubsystem "db" []).build.toOption.any asked =
      true := by
    decide +kernel
  cases hBuild : ((KernelBuilder.new "service").withSubsystem "db" []).build with
  | error e => simp [hBuild, Except.toOption] at hAsked
  | ok k =>
      simp only [hBuild, Except.toOption, Option.any_some, asked, Bool.and_eq_true,
        List.isEmpty_iff, decide_eq_true_eq, List.all_eq_true, Bool.or_eq_true,
        Bool.not_eq_true'] at hAsked
      obtain ⟨⟨⟨hWorkers, hNames⟩, hState⟩, hResult⟩ := hAsked
      have hSound : script.Sound k.subsystems := by
        intro s hMem hBuiltin c
        rcases hNames s hMem with hConsumer | hOther
        · rw [hBuiltin] at hConsumer
          cases hConsumer
        · exact if_neg fun h => hOther h.2
      have hRun := @run_eq_reference Unit _ k _ hBuild script 0 ()
      obtain ⟨c, exit, reach, hExit, hOk, hApplies⟩ := hRun.2 hSound (Or.inl hWorkers)
      obtain ⟨-, hReturned, hLeft⟩ := hRun.1 c exit reach hExit hOk hApplies
      exact ⟨k, rfl, c, exit, hExit, hReturned.trans (by rw [hResult]), hLeft.trans hState⟩

end System

end ServiceKernel
