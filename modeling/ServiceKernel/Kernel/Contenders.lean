import Mathlib.Algebra.Order.BigOperators.Group.List
import Mathlib.Algebra.Order.Ring.Nat
import ServiceKernel.Kernel.Announcements
import ServiceKernel.Semantics.Chronicle

/-! Many threads may call `boot` and `run` of one kernel. The check that takes it out of
`Created` admits one of these calls; the others are turned away by it. -/
namespace ServiceKernel

open Interleaving Execution

variable {Thread : Type}

/-- The deed takes the kernel to `Booting`. -/
def admits (d : Deed KernelSig) : Bool :=
  (kernelRecord d.1 d.2).move.any fun m => m.2.1 = .booting

/-- The error of a call of `boot`, or of a `run` whose boot failed. -/
def KernelReturn.failure : KernelReturn → Option KernelError
  | .booted (.error e) => some e
  | .ran (.bootFailed e) => some e
  | _ => none

/-- A call that asked for `Booting`, was refused, and returned this without doing
anything else. -/
def TurnedAway (call : Completed KernelSig Thread KernelCall KernelReturn) : Prop :=
  ∃ fromState, fromState ≠ .created ∧
    call.deeds = [⟨.lifecycle (.checkAndSet .booting), Except.error ⟨fromState, .booting⟩⟩] ∧
    call.result.failure = some (illegalTransition ⟨fromState, .booting⟩)

section Paths

variable {k : Kernel} {call : KernelCall} {deeds : List (Deed KernelSig)} {r : KernelReturn}

theorem path_starts (hStarts : call.starts = true) (h : (kernelBody k call).Path deeds r) :
    (∃ e, deeds = [⟨.lifecycle (.checkAndSet .booting), Except.error e⟩] ∧
      r.failure = some (illegalTransition e)) ∨
    ∃ move rest, deeds = ⟨.lifecycle (.checkAndSet .booting), Except.ok move⟩ :: rest := by
  cases call with
  | boot | run =>
      obtain ⟨answer, rest, rfl, hRest⟩ := Program.path_perform_iff.mp h
      cases answer with
      | error e =>
          obtain ⟨rfl, rfl⟩ := Program.path_done_iff.mp hRest
          exact Or.inl ⟨e, rfl, rfl⟩
      | ok move => exact Or.inr ⟨move, rest, rfl⟩
  | _ => cases hStarts

end Paths

/-- No way of a kernel leads to `Booting` twice. -/
theorem Route.once {visited : List KernelState} (h : Route visited) : visited.count .booting ≤ 1 := by
  rcases h with hPrefix | rfl | rfl
  · exact hPrefix.sublist.count_le _
  · exact Nat.le_refl _
  · exact Nat.le_refl _

/-- Whoever has left `Created` has gone to `Booting`. -/
theorem Route.began {visited : List KernelState} (h : Route visited) (hSome : visited ≠ []) :
    1 ≤ visited.count .booting := by
  rcases h with hPrefix | rfl | rfl
  · cases visited with
    | nil => exact absurd rfl hSome
    | cons first rest =>
        obtain ⟨rfl, -⟩ := List.cons_prefix_cons.mp hPrefix
        simp
  · exact Nat.le_refl _
  · exact Nat.le_refl _

section System

variable [DecidableEq Thread] {k : Kernel} {b : KernelBuilder} {clock : Instant}
  {c : KernelConfig Thread} {history : List (Entry KernelSig Thread KernelCall KernelReturn)}

theorem walked_of_reachable (hBuilt : k.WellFormed b)
    (reach : Reachable (KernelStep Thread k) (KernelConfig.built Thread k clock) c) :
    ∃ stage, Walked stage c.world := by
  obtain ⟨pos, hTyped⟩ := Typestate.typed_of_reachable (T := announcingTypestate Thread hBuilt)
    (Typestate.typed_start ⟨.created, announced_built k clock⟩) reach
  exact hTyped.1.imp fun _ h => h.walked

/-- The deeds that lead to `Booting` are the moves to it. -/
theorem count_admits (h : Chronicle (kernelMachine Thread) (kernelBody k)
      (KernelConfig.built Thread k clock) history c) :
    (deedsOf history).countP (fun d => admits d.2) =
      ((grantedMoves c.world.trace).map fun m => m.2.1).count .booting := by
  have hTrace : c.world.trace = (deedsOf history).map fun d => (d.1, kernelRecord d.2.1 d.2.2) :=
    h.trace
  rw [hTrace, grantedMoves, List.filterMap_map, List.count_eq_countP, List.countP_map,
    List.countP_filterMap]
  apply List.countP_congr
  intro d _
  simp only [admits, Function.comp_apply]
  cases (kernelRecord d.2.1 d.2.2).move <;> simp

theorem admitted_once (hBuilt : k.WellFormed b)
    (h : Chronicle (kernelMachine Thread) (kernelBody k) (KernelConfig.built Thread k clock) history c) :
    (deedsOf history).countP (fun d => admits d.2) ≤ 1 := by
  obtain ⟨stage, hWalked⟩ := walked_of_reachable hBuilt h.reachable
  rw [count_admits h, hWalked.visited]
  exact stage.visited_route.once

/-- A refusal comes after an admission. -/
theorem refused_of_deed (hBuilt : k.WellFormed b) {t : Thread} {e : TransitionError}
    (h : Chronicle (kernelMachine Thread) (kernelBody k) (KernelConfig.built Thread k clock) history c)
    (hMem : (t, ⟨.lifecycle (.checkAndSet .booting), Except.error e⟩) ∈ deedsOf history) :
    (∃ fromState, fromState ≠ .created ∧ e = ⟨fromState, .booting⟩) ∧
      1 ≤ (deedsOf history).countP fun d => admits d.2 := by
  obtain ⟨entry, hEntry, hDeed⟩ := List.mem_filterMap.mp hMem
  cases entry with
  | did u o a =>
      cases hDeed
      obtain ⟨before, after, rfl⟩ := List.append_of_mem hEntry
      obtain ⟨middle, call, next, shared, hBefore, -, hExec⟩ := h.at_did
      obtain ⟨l, hLifecycle, -⟩ := KernelInner.withLifecycle_some.mp hExec
      obtain ⟨hRefused, rfl, -⟩ := lifecycle_refused hLifecycle
      have hLeft : middle.world.shared.lifecycle.state ≠ .created := by
        intro hCreated
        have hLegal := isLegal_booting.mpr hCreated
        rw [hRefused] at hLegal
        cases hLegal
      refine ⟨⟨_, hLeft, rfl⟩, ?_⟩
      obtain ⟨stage, hWalked⟩ := walked_of_reachable hBuilt hBefore.reachable
      have hVisited : stage.visited ≠ [] := by
        intro hNone
        have hLinked := hWalked.linked
        rw [List.map_eq_nil_iff.mp (hWalked.visited.trans hNone)] at hLinked
        exact hLeft hLinked.symm
      have hAdmitted := stage.visited_route.began hVisited
      rw [← hWalked.visited, ← count_admits hBefore] at hAdmitted
      rw [deedsOf, List.filterMap_append, List.countP_append]
      exact Nat.le_trans hAdmitted (Nat.le_add_right _ _)
  | _ => cases hDeed

/-- In any run at most one call of `boot` or `run` is admitted. Those that have returned
without were turned away, and if any has returned then one was admitted. -/
theorem one_start_admitted (hBuild : b.build = .ok k)
    (h : Chronicle (kernelMachine Thread) (kernelBody k) (KernelConfig.built Thread k clock)
      history c) :
    ((completedOf history).countP fun call => call.deeds.any admits) ≤ 1 ∧
      ∀ call ∈ completedOf history, call.call.starts = true →
        (call.deeds.any admits = true ∨ TurnedAway call) ∧
          (deedsOf history).countP (fun d => admits d.2) = 1 := by
  have hBuilt := build_wellFormed hBuild
  have hOnce := admitted_once hBuilt h
  refine ⟨?_, fun call hMem hStarts => ?_⟩
  · calc (completedOf history).countP (fun call => call.deeds.any admits)
        = ((completedOf history).map fun call => if call.deeds.any admits then 1 else 0).sum :=
          (sum_indicator _ _).symm
      _ ≤ ((completedOf history).map fun call => call.deeds.countP admits).sum := by
          apply List.sum_le_sum
          intro call _
          split_ifs with hAny
          · exact List.countP_pos_iff.mpr (List.any_eq_true.mp hAny)
          · exact Nat.zero_le _
      _ ≤ (deedsOf history).countP fun d => admits d.2 := h.count_le admits
      _ ≤ 1 := hOnce
  · rcases path_starts hStarts (h.completed_path call hMem) with
      ⟨e, hDeeds, hFailure⟩ | ⟨move, rest, hDeeds⟩
    · have hDeed := h.of_completed hMem (hDeeds ▸ List.mem_singleton_self _)
      obtain ⟨⟨fromState, hLeft, rfl⟩, hAdmitted⟩ := refused_of_deed hBuilt h hDeed
      exact ⟨Or.inr ⟨fromState, hLeft, hDeeds, hFailure⟩, Nat.le_antisymm hOnce hAdmitted⟩
    · have hAdmits : admits ⟨.lifecycle (.checkAndSet .booting), Except.ok move⟩ = true := rfl
      have hDeed := h.of_completed hMem (hDeeds ▸ List.mem_cons_self)
      refine ⟨Or.inl ?_, Nat.le_antisymm hOnce (List.countP_pos_iff.mpr ⟨_, hDeed, hAdmits⟩)⟩
      rw [hDeeds, List.any_cons, hAdmits, Bool.true_or]

/-- Play a schedule through with its history, and ask about both. -/
def Environment.playsNoting (env : Environment) (b : KernelBuilder)
    (moves : List (Move Thread KernelCall))
    (ask : List (Entry KernelSig Thread KernelCall KernelReturn) → KernelConfig Thread → Bool) : Bool :=
  b.build.toOption.any fun k => (scheduleNoting (kernelMachine Thread) (kernelBody k) env.answer
    ([], KernelConfig.built Thread k 0) moves).any fun run => ask run.1 run.2

theorem Environment.chronicle_of_plays {env : Environment} {b : KernelBuilder}
    {moves : List (Move Thread KernelCall)}
    {ask : List (Entry KernelSig Thread KernelCall KernelReturn) → KernelConfig Thread → Bool}
    (h : env.playsNoting b moves ask = true) : ∃ k, b.build = .ok k ∧ ∃ history c,
      Chronicle (kernelMachine Thread) (kernelBody k) (KernelConfig.built Thread k 0) history c ∧
        ask history c = true := by
  unfold playsNoting at h
  cases hBuild : b.build with
  | error e => simp [hBuild, Except.toOption] at h
  | ok k =>
      simp only [hBuild, Except.toOption, Option.any_some, Option.any_eq_true] at h
      obtain ⟨⟨history, c⟩, hSchedule, hAsk⟩ := h
      exact ⟨k, rfl, history, c, Chronicle.start.scheduled hSchedule, hAsk⟩

/-- One thread boots; a second one calls `run` meanwhile and is turned away. -/
theorem one_start_admitted_second :
    ∃ k, (KernelBuilder.new "service").build = .ok k ∧
      ∃ (history : List (Entry KernelSig Bool KernelCall KernelReturn)) (c : KernelConfig Bool),
        Chronicle (kernelMachine Bool) (kernelBody k) (KernelConfig.built Bool k 0) history c ∧
        (completedOf history).length = 1 ∧ (deedsOf history).countP (fun d => admits d.2) = 1 ∧
        ((completedOf history).countP fun call => call.deeds.any admits) ≤ 1 := by
  have hPlays : Environment.calm.playsNoting (KernelBuilder.new "service")
      [.call false .boot, .go false, .call true .run, .go true, .ret true, .go false]
      (fun history _ => (completedOf history).length = 1 ∧
        (completedOf history).all fun call => call.call.starts) = true := by
    decide +kernel
  obtain ⟨k, hBuild, history, c, h, hAsk⟩ := Environment.chronicle_of_plays hPlays
  obtain ⟨hOne, hStarts⟩ := of_decide_eq_true hAsk
  obtain ⟨hCount, hCalls⟩ := one_start_admitted hBuild h
  obtain ⟨call, hSame⟩ := List.length_eq_one_iff.mp hOne
  have hMem : call ∈ completedOf history := hSame ▸ List.mem_singleton_self call
  exact ⟨k, hBuild, history, c, h, hOne, (hCalls call hMem (List.all_eq_true.mp hStarts call hMem)).2,
    hCount⟩

end System

end ServiceKernel
