import ServiceKernel.Kernel.Conduct

/-! What a call of `run` makes of a fresh kernel, as a function of the boot order and of
how each callback ends, and that its program follows this reference. -/
namespace ServiceKernel

open Interleaving Execution

/-- How each callback ends, by the name of its subsystem. -/
abbrev Script := Callback → String → CallbackOutcome

namespace Script

variable (script : Script) (c : Callback)

/-- The error that calling the method on a subsystem leaves behind. -/
def error (s : Subsystem) : Option KernelError := (script c s.name).error s.name

/-- The method is called on each subsystem of the list. -/
def calls (subsystems : List Subsystem) : List KernelRecord :=
  subsystems.flatMap fun s => [.started c s.name, .finished c s.name (script c s.name)]

/-- The subsystems up to the first whose method fails, and its error. -/
def attempt : List Subsystem → List Subsystem × Option KernelError
  | [] => ([], none)
  | s :: rest => match script.error c s with
    | some error => ([s], some error)
    | none => (s :: (attempt rest).1, (attempt rest).2)

/-- The first error, in the order of the calls. -/
def closingResult (subsystems : List Subsystem) : Except KernelError Unit :=
  match subsystems.findSome? (script.error .shutdown) with
  | some error => .error error
  | none => .ok ()

end Script

/-- The callbacks of a run, what it returns and the state it leaves. -/
structure ReferenceRun where
  calls : List KernelRecord
  result : Except KernelError Unit
  state : KernelState

/-- The exec phase, if the call came to it, has returned `Ok`. -/
def RunExit.execOk : RunExit → Bool
  | execFailed _ => false
  | unwound => false
  | _ => true

/-- Boot in order up to the first failure, load in order up to the first failure, and shut
down in reverse whatever was loaded: all of it, if nothing failed. -/
def referenceRun (script : Script) (subsystems : List Subsystem) : ReferenceRun :=
  match script.attempt .boot subsystems with
  | (booted, some error) => ⟨script.calls .boot booted, .error error, .failed⟩
  | (_, none) => match script.attempt .load subsystems with
    | (loaded, some error) =>
      { calls := script.calls .boot subsystems ++ script.calls .load loaded ++
          script.calls .shutdown loaded.dropLast.reverse
        result := .error error
        state := .failed }
    | (_, none) =>
      { calls := script.calls .boot subsystems ++ script.calls .load subsystems ++
          script.calls .shutdown subsystems.reverse
        result := script.closingResult subsystems.reverse
        state := .stopped }

section Attempt

variable {script : Script} {c : Callback} {s : Subsystem} {front rest : List Subsystem}
  {e : KernelError}

@[simp] theorem Script.calls_nil : script.calls c [] = [] := rfl

theorem Script.calls_concat : script.calls c (front ++ [s]) =
    script.calls c front ++
      [KernelRecord.started c s.name, .finished c s.name (script c s.name)] := by
  simp [calls]

/-- Subsystems whose method succeeds are passed. -/
theorem Script.attempt_append (rest : List Subsystem)
    (hFront : ∀ s ∈ front, script.error c s = none) :
    script.attempt c (front ++ rest) =
      (front ++ (script.attempt c rest).1, (script.attempt c rest).2) := by
  induction front with
  | nil => rfl
  | cons s front ih =>
      have hHere : script.error c s = none := hFront s List.mem_cons_self
      have hLater := ih fun other hMem => hFront other (List.mem_cons_of_mem s hMem)
      simp only [List.cons_append, attempt, hHere, hLater]

theorem Script.attempt_cons (hHere : script.error c s = some e) :
    script.attempt c (s :: rest) = ([s], some e) := by
  simp only [attempt, hHere]

theorem CallbackOutcome.error_eq_none {outcome : CallbackOutcome} {name : String} :
    outcome.error name = none ↔ outcome = .ok := by
  cases outcome <;> simp [error]

end Attempt

/-- The answers of a run that goes by the script and is not refused a transition. -/
def Script.allows (script : Script) : (o : KernelOp) → KernelSig.Ans o → Bool
  | .finishCallback c s, outcome => outcome = script c s.name
  | .lifecycle (.checkAndSet _), .error _ => false
  | _, _ => true

/-- The orchestration by a script. -/
abbrev scripted (script : Script) (k : Kernel) : Protocol KernelSig :=
  (orchestration k).restrict script.allows

section Follows

variable {k : Kernel} {script : Script} {α : Type} {program : Program KernelSig α}
  {exit : α → Position → Prop} {p : Position}

/-- The operations that the script has no say in. -/
def KernelOp.Unscripted : KernelOp → Prop
  | .finishCallback .. => False
  | .lifecycle (.checkAndSet _) => False
  | _ => True

theorem KernelOp.Unscripted.allows {o : KernelOp} (h : o.Unscripted) (a : KernelSig.Ans o) :
    script.allows o a = true := by
  cases o with
  | finishCallback => exact h.elim
  | lifecycle o => cases o with
    | checkAndSet => exact h.elim
    | _ => rfl
  | _ => rfl

theorem scripted_of_all (hAll : program.All KernelOp.Unscripted)
    (h : (orchestration k).Follows exit program p) : (scripted script k).Follows exit program p :=
  h.restrict (fun _ hPlain => hPlain.allows) hAll

theorem scripted_op {o : KernelOp} {next : KernelSig.Ans o → Program KernelSig α} {p' : Position}
    (hPlain : o.Unscripted) (hNext : ∀ a, Position.next k p o a = some p')
    (h : ∀ a, (scripted script k).Follows exit (next a) p') :
    (scripted script k).Follows exit (.perform o next) p := by
  have := kernelAns_nonempty o
  refine Protocol.Follows.step (fun a => ?_) h
  exact (Protocol.restrict_allowed (hPlain.allows a)).trans (hNext a)

/-- A callback ends as the script says. -/
theorem scripted_finish {c : Callback} {s : Subsystem}
    {next : CallbackOutcome → Program KernelSig α} {p' : Position}
    (hNext : Position.next k p (.finishCallback c s) (script c s.name) = some p')
    (h : (scripted script k).Follows exit (next (script c s.name)) p') :
    (scripted script k).Follows exit (.perform (.finishCallback c s) next) p := by
  have hAllows : script.allows (.finishCallback c s) (script c s.name) = true := decide_eq_true rfl
  refine ⟨⟨script c s.name, ?_⟩, fun outcome q hStep => ?_⟩
  · exact Option.isSome_iff_exists.mpr ⟨p', (Protocol.restrict_allowed hAllows).trans hNext⟩
  · obtain ⟨hOutcome, hStep⟩ := Protocol.restrict_eq_some.mp hStep
    obtain rfl : outcome = script c s.name := of_decide_eq_true hOutcome
    obtain rfl := Option.some.inj (hStep.symm.trans hNext)
    exact h

/-- A transition is granted. -/
theorem scripted_transition {toState : KernelState} {p' : Position}
    (hNext : ∀ move, Position.next k p (.lifecycle (.checkAndSet toState)) (.ok move) = some p') :
    (scripted script k).Follows (fun r q => r = .ok () ∧ q = p') (onLifecycle (transition toState))
      p := by
  have hSome : ∀ move : KernelState × Instant,
      (scripted script k).next p (.lifecycle (.checkAndSet toState)) (.ok move) = some p' :=
    fun move => (Protocol.restrict_allowed rfl).trans (hNext move)
  refine ⟨⟨.ok (.created, 0), by rw [hSome]; rfl⟩, fun a q hStep => ?_⟩
  cases a with
  | error e => cases (Protocol.restrict_eq_some.mp hStep).1
  | ok move =>
      obtain rfl := Option.some.inj ((hSome move).symm.trans hStep)
      exact scripted_op trivial (fun _ => rfl) fun _ => scripted_op trivial (fun _ => rfl) fun _ =>
        scripted_op trivial (fun _ => rfl) fun _ => ⟨rfl, rfl⟩

theorem scripted_move {stage stage' : Stage} {toState : KernelState}
    (hMove : stage.moves k toState = some stage') :
    (scripted script k).Follows (fun r q => r = .ok () ∧ q = .inside stage')
      (onLifecycle (transition toState)) (.inside stage) :=
  scripted_transition fun move => by simp [Position.next, Position.lifecycle, hMove]

end Follows

section Phases

variable {k : Kernel} {script : Script} {c : Callback}

/-- How a forward loop ends by the script. -/
def ScriptedForward (script : Script) (k : Kernel) (c : Callback) (r : Except KernelError Unit)
    (q : Position) : Prop :=
  match r with
  | .ok _ => (script.attempt c k.subsystems).2 = none ∧ q = .inside (.forward c k.subsystems.length)
  | .error e => ∃ done < k.subsystems.length,
      script.attempt c k.subsystems = (k.subsystems.take (done + 1), some e) ∧
      q = .inside (.broken c done)

theorem scripted_forwardPhase {record : String → Program KernelSig Unit} (hForward : c ≠ .shutdown)
    (hRecord : ∀ done s, k.subsystems[done]? = some s →
      (scripted script k).Follows (fun _ q => q = .inside (.forward c (done + 1))) (record s.name)
        (.inside (.recording c done)))
    {rest : List Subsystem} {done : Nat} (hRest : k.subsystems.drop done = rest)
    (hDone : done ≤ k.subsystems.length)
    (hFront : ∀ s ∈ k.subsystems.take done, script.error c s = none) :
    (scripted script k).Follows (ScriptedForward script k c) (forwardPhase c record rest)
      (.inside (.forward c done)) := by
  have hSplit : k.subsystems.take done ++ rest = k.subsystems := by
    rw [← hRest]
    exact List.take_append_drop done k.subsystems
  have hAttempt := Script.attempt_append rest hFront
  rw [hSplit] at hAttempt
  induction rest generalizing done with
  | nil =>
      have hEnd : done = k.subsystems.length :=
        Nat.le_antisymm hDone (List.drop_eq_nil_iff.mp hRest)
      subst hEnd
      refine ⟨?_, rfl⟩
      rw [hAttempt]
      rfl
  | cons s rest ih =>
      obtain ⟨hNext, hLater⟩ := getElem?_of_drop hRest
      have hLt : done < k.subsystems.length := (List.getElem?_eq_some_iff.mp hNext).1
      have hTake : k.subsystems.take (done + 1) = k.subsystems.take done ++ [s] := by
        rw [List.take_add_one, hNext]
        rfl
      have hStart : Position.next k (.inside (.forward c done)) (.startCallback c s) () =
          some (.inside (.calling c done)) := by
        simp [Position.next, Position.within, Stage.starts_forward hForward hNext]
      refine scripted_op trivial (fun _ => hStart) fun _ => ?_
      have hFinish : Position.next k (.inside (.calling c done)) (.finishCallback c s)
          (script c s.name) = some (.inside (if script c s.name = .ok then .recording c done
            else .broken c done)) := by
        simp [Position.next, Position.within, Stage.finishes_calling hForward hNext]
      apply scripted_finish hFinish
      simp only [Program.bind]
      cases hOutcome : (script c s.name).error s.name with
      | some e =>
          have hNot : script c s.name ≠ .ok := by
            intro hOk
            simp [hOk, CallbackOutcome.error] at hOutcome
          rw [if_neg hNot]
          rw [Script.attempt_cons hOutcome, ← hTake] at hAttempt
          exact ⟨done, hLt, hAttempt, rfl⟩
      | none =>
          have hOk := CallbackOutcome.error_eq_none.mp hOutcome
          have hPassed : ∀ other ∈ k.subsystems.take (done + 1), script.error c other = none := by
            intro other hMem
            rw [hTake] at hMem
            rcases List.mem_append.mp hMem with hBefore | hHere
            · exact hFront other hBefore
            · rw [List.mem_singleton.mp hHere]
              exact hOutcome
          have hAgain : k.subsystems.take (done + 1) ++ rest = k.subsystems := by
            rw [← hLater]
            exact List.take_append_drop (done + 1) k.subsystems
          have hNextAttempt := Script.attempt_append rest hPassed
          rw [hAgain] at hNextAttempt
          rw [if_pos hOk]
          exact (hRecord done s hNext).seq fun _ => ih hLater hLt hPassed hAgain hNextAttempt

/-- A shutdown loop calls all of them and keeps the first error. -/
theorem scripted_shutdownEach {rollback : Bool} {loaded up : Nat} (firstErr : Option KernelError)
    (hUp : up ≤ k.subsystems.length) :
    (scripted script k).Follows (fun r q => q = .inside (.closing rollback loaded 0) ∧
        r = firstErr.or ((k.subsystems.take up).reverse.findSome? (script.error .shutdown)))
      (shutdownEach (k.subsystems.take up).reverse firstErr)
      (.inside (.closing rollback loaded up)) := by
  induction up generalizing firstErr with
  | zero => exact ⟨rfl, (Option.or_none).symm⟩
  | succ up ih =>
      have hLt : up < k.subsystems.length := hUp
      have hNext : k.subsystems[up]? = some k.subsystems[up] := List.getElem?_eq_getElem hLt
      rw [List.take_add_one, hNext, Option.toList_some, List.reverse_concat]
      have hStart : Position.next k (.inside (.closing rollback loaded (up + 1)))
          (.startCallback .shutdown k.subsystems[up]) () =
          some (.inside (.callingShutdown rollback loaded up)) := by
        simp [Position.next, Position.within, Stage.starts, hNext]
      have hFinish : Position.next k (.inside (.callingShutdown rollback loaded up))
          (.finishCallback .shutdown k.subsystems[up]) (script .shutdown k.subsystems[up].name) =
          some (.inside (.closing rollback loaded up)) := by
        simp [Position.next, Position.within, Stage.finishes, hNext]
      refine scripted_op trivial (fun _ => hStart) fun _ => scripted_finish hFinish ?_
      refine (ih _ (Nat.le_of_lt hLt)).mono fun r q hEnd => ⟨hEnd.1, hEnd.2.trans ?_⟩
      rw [Option.or_assoc, List.findSome?_cons]
      have hHere : script.error .shutdown k.subsystems[up] =
          (script .shutdown k.subsystems[up].name).error k.subsystems[up].name := rfl
      rw [← hHere]
      cases script.error .shutdown k.subsystems[up] <;> rfl

theorem scripted_runBootPhase : (scripted script k).Follows (ScriptedForward script k .boot)
    (runBootPhase k) (.inside (.forward .boot 0)) := by
  refine scripted_op trivial (fun _ => rfl) fun _ => ?_
  have hRecord : ∀ done s, k.subsystems[done]? = some s → (scripted script k).Follows
      (fun _ q => q = .inside (.forward .boot (done + 1))) (recordBooted s.name)
      (.inside (.recording .boot done)) := fun done s hNext =>
    scripted_of_all ⟨trivial, fun _ => ⟨trivial, fun _ => ⟨trivial, fun _ => trivial⟩⟩⟩
      (follows_recordBooted hNext)
  refine (scripted_forwardPhase (by decide) hRecord rfl (Nat.zero_le _) (by simp)).bind
    fun r q hEnd => ?_
  exact scripted_op trivial (fun _ => rfl) fun _ => hEnd

theorem scripted_runLoadPhase : (scripted script k).Follows (ScriptedForward script k .load)
    (runLoadPhase k) (.inside (.forward .load 0)) := by
  refine scripted_op trivial (fun _ => rfl) fun _ => ?_
  have hRecord : ∀ done s, k.subsystems[done]? = some s → (scripted script k).Follows
      (fun _ q => q = .inside (.forward .load (done + 1))) (recordLoaded s.name)
      (.inside (.recording .load done)) := fun done s hNext =>
    scripted_of_all ⟨trivial, fun _ => ⟨trivial, fun _ => ⟨trivial, fun _ => trivial⟩⟩⟩
      (follows_recordLoaded hNext)
  refine (scripted_forwardPhase (by decide) hRecord rfl (Nat.zero_le _) (by simp)).bind
    fun r q hEnd => ?_
  exact scripted_op trivial (fun _ => rfl) fun _ => hEnd

theorem scripted_runShutdownPhase : (scripted script k).Follows (fun r q =>
      q = .inside (.closing false k.subsystems.length 0) ∧
        r = script.closingResult k.subsystems.reverse)
    (runShutdownPhase k) (.inside (.closing false k.subsystems.length k.subsystems.length)) := by
  refine scripted_op trivial (fun _ => rfl) fun _ => ?_
  have hLoop := @scripted_shutdownEach k script false k.subsystems.length k.subsystems.length none
    (Nat.le_refl _)
  rw [List.take_length] at hLoop
  apply hLoop.bind
  intro firstErr q hEnd
  obtain ⟨rfl, rfl⟩ := hEnd
  refine scripted_op trivial (fun _ => rfl) fun _ => ?_
  simp only [Program.bind, Option.none_or, Script.closingResult]
  cases k.subsystems.reverse.findSome? (script.error .shutdown) <;> exact ⟨rfl, rfl⟩

theorem scripted_runShutdownPhaseToLoaded (hNames : (k.subsystems.map Subsystem.name).Nodup)
    {done : Nat} (hDone : done ≤ k.subsystems.length) :
    (scripted script k).Follows (fun _ q => q = .inside (.closing true done 0))
      (runShutdownPhaseToLoaded k) (.inside (.broken .load done)) := by
  refine scripted_op trivial (fun _ => rfl) fun _ => ?_
  refine ⟨⟨(k.subsystems.map Subsystem.name).take done, ?_⟩, fun (keys : List String)
    (p' : Position) hStep => ?_⟩
  · rw [Protocol.restrict_allowed rfl]
    simp [Position.next, Position.within, Stage.reads]
    rfl
  have hFree : ((Stage.broken .load done).reads k keys).map Position.inside = some p' :=
    (Protocol.restrict_eq_some.mp hStep).2
  simp only [Stage.reads, Option.map_eq_some_iff, Option.ite_none_right_eq_some] at hFree
  obtain ⟨stage, ⟨hKeys, hStage⟩, rfl⟩ := hFree
  obtain rfl := Option.some.inj hStage
  refine scripted_op trivial (fun _ => rfl) fun _ => scripted_op trivial (fun _ => rfl) fun _ => ?_
  rw [filter_loaded hNames hKeys]
  apply (scripted_shutdownEach none hDone).bind
  intro _ q hEnd
  exact scripted_op trivial (fun _ => rfl) fun _ => hEnd.1

/-- How `boot` ends by the script. -/
def ScriptedBoot (script : Script) (k : Kernel) (r : Except KernelError Unit) (q : Position) :
    Prop :=
  match r with
  | .ok _ => (script.attempt .boot k.subsystems).2 = none ∧
      (script.attempt .load k.subsystems).2 = none ∧ q = .inside (.exec .entered)
  | .error e => ∃ c done, done < k.subsystems.length ∧ q = .inside (.failed c done) ∧
      script.attempt c k.subsystems = (k.subsystems.take (done + 1), some e) ∧
      (c = .boot ∨ c = .load ∧ (script.attempt .boot k.subsystems).2 = none)

theorem scripted_boot (hNames : (k.subsystems.map Subsystem.name).Nodup) :
    (scripted script k).Follows (ScriptedBoot script k) (boot k) .outside := by
  have hBegin : ∀ move, Position.next k .outside (.lifecycle (.checkAndSet .booting)) (.ok move) =
      some (.inside (.forward .boot 0)) := fun _ => rfl
  apply (scripted_transition hBegin).bind
  intro r q hQ
  obtain ⟨rfl, rfl⟩ := hQ
  apply scripted_runBootPhase.bind
  intro r q hEnd
  cases r with
  | error e =>
      obtain ⟨done, hLt, hAttempt, rfl⟩ := hEnd
      have hFail : (Stage.broken .boot done).moves k .failed = some (.failed .boot done) := rfl
      exact (scripted_move hFail).bind fun _ q hQ => ⟨_, done, hLt, hQ.2, hAttempt, Or.inl rfl⟩
  | ok u =>
      obtain ⟨hBooted, rfl⟩ := hEnd
      have hLoad : (Stage.forward .boot k.subsystems.length).moves k .loading =
          some (.forward .load 0) := by simp [Stage.moves]
      apply (scripted_move hLoad).bind
      intro r q hQ
      obtain ⟨rfl, rfl⟩ := hQ
      apply scripted_runLoadPhase.bind
      intro r q hEnd
      cases r with
      | error e =>
          obtain ⟨done, hLt, hAttempt, rfl⟩ := hEnd
          apply (scripted_runShutdownPhaseToLoaded hNames (Nat.le_of_lt hLt)).seq
          intro _
          have hFail : (Stage.closing true done 0).moves k .failed = some (.failed .load done) := rfl
          exact (scripted_move hFail).bind fun _ q hQ =>
            ⟨_, done, hLt, hQ.2, hAttempt, Or.inr ⟨rfl, hBooted⟩⟩
      | ok u =>
          obtain ⟨hLoaded, rfl⟩ := hEnd
          have hRun : (Stage.forward .load k.subsystems.length).moves k .running =
              some (.exec .entered) := by simp [Stage.moves]
          apply (scripted_move hRun).bind
          intro r q hQ
          obtain ⟨rfl, rfl⟩ := hQ
          exact ⟨hBooted, hLoaded, rfl⟩

end Phases

end ServiceKernel
