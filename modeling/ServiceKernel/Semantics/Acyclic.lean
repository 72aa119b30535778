import Mathlib.Data.List.MinMax
import Mathlib.Data.Set.Finite.List
import Mathlib.Logic.Relation
import Mathlib.Order.WellFounded
import ServiceKernel.Semantics.History

/-! Cycles among items that depend on one another: without one, finitely many items have
one that needs none of the others; in an order that respects the dependencies, none of
the items is on a cycle and each has a depth. -/
namespace Execution

open Relation

variable {Item : Type*} {dependsOn : Item → Item → Prop}

/-- No item depends on itself, however indirectly. -/
def Acyclic (dependsOn : Item → Item → Prop) : Prop := ∀ a, ¬ TransGen dependsOn a a

/-- Among finitely many items one depends on none of the others. -/
theorem Acyclic.exists_independent (h : Acyclic dependsOn) {items : List Item}
    (hNonempty : items ≠ []) : ∃ a ∈ items, ∀ b ∈ items, ¬ dependsOn a b := by
  let below (x y : {a // a ∈ items}) : Prop := TransGen dependsOn y.1 x.1
  have hTrans : IsTrans _ below := ⟨fun _ _ _ hFirst hSecond => hSecond.trans hFirst⟩
  have hIrrefl : Std.Irrefl below := ⟨fun x => h x.1⟩
  have hFinite : Finite {a // a ∈ items} := List.finite_toSet items
  obtain ⟨first, hFirst⟩ := List.exists_mem_of_ne_nil items hNonempty
  obtain ⟨lowest, -, hLowest⟩ := (Finite.wellFounded_of_trans_of_irrefl below).has_min Set.univ
    ⟨⟨first, hFirst⟩, trivial⟩
  exact ⟨lowest.1, lowest.2, fun b hMem hDep => hLowest ⟨b, hMem⟩ trivial (TransGen.single hDep)⟩

/-- Among finitely many items that each depend on one of them, all lead to a cycle. -/
theorem exists_cycle {items : List Item} (h : ∀ a ∈ items, ∃ b ∈ items, dependsOn a b) {start : Item}
    (hStart : start ∈ items) : ∃ c, ReflTransGen dependsOn start c ∧ TransGen dependsOn c c := by
  classical
  by_contra hNone
  push Not at hNone
  let within (a b : Item) : Prop := ReflTransGen dependsOn start a ∧ dependsOn a b
  have hAcyclic : Acyclic within := by
    intro a hCycle
    obtain ⟨_, hFirst, -⟩ := TransGen.head'_iff.mp hCycle
    exact hNone a hFirst.1 (hCycle.lift id fun _ _ hStep => hStep.2)
  -- the items that the start leads to are closed under some dependency of each
  let reached := items.filter fun a => ReflTransGen dependsOn start a
  have hReached : ∀ a, a ∈ reached ↔ a ∈ items ∧ ReflTransGen dependsOn start a := fun a => by
    simp [reached]
  have hNonempty : reached ≠ [] := List.ne_nil_of_mem ((hReached start).mpr ⟨hStart, .refl⟩)
  obtain ⟨a, hMem, hIndependent⟩ := hAcyclic.exists_independent hNonempty
  obtain ⟨hItem, hLeads⟩ := (hReached a).mp hMem
  obtain ⟨b, hNext, hDep⟩ := h a hItem
  exact hIndependent b ((hReached b).mpr ⟨hNext, hLeads.tail hDep⟩) ⟨hLeads, hDep⟩

variable [DecidableEq Item] {order : List Item} {a b : Item}

/-- Where every item comes after what it depends on, dependencies lead backwards. -/
theorem Every.backwards (h : Every (fun past a => ∀ b, dependsOn a b → b ∈ past) order)
    (hMem : a ∈ order) (hDep : TransGen dependsOn a b) :
    b ∈ order ∧ order.idxOf b < order.idxOf a := by
  have hOne : ∀ a ∈ order, ∀ b, dependsOn a b → b ∈ order ∧ order.idxOf b < order.idxOf a := by
    intro a hMem b hDep
    have hPast : b ∈ order.take (order.idxOf a) :=
      h.of_getElem (List.getElem?_idxOf hMem) b hDep
    have hKnown := List.mem_of_mem_take hPast
    exact ⟨hKnown, (List.mem_take_iff_idxOf_lt hKnown).mp hPast⟩
  induction hDep with
  | single hDep => exact hOne a hMem _ hDep
  | tail _ hDep ih =>
      obtain ⟨hKnown, hBefore⟩ := hOne _ ih.1 _ hDep
      exact ⟨hKnown, hBefore.trans ih.2⟩

/-- No item of such an order is on a cycle. -/
theorem Every.not_cyclic (h : Every (fun past a => ∀ b, dependsOn a b → b ∈ past) order)
    (hMem : a ∈ order) : ¬ TransGen dependsOn a a := fun hCycle =>
  Nat.lt_irrefl _ (h.backwards hMem hCycle).2

section Depth

variable {Item : Type*} {depth other : Item → Nat} {needed : List Item} {edges : Item → List Item}

/-- What needs nothing is at depth zero, all else one below the deepest that it needs. -/
def depthOver (depth : Item → Nat) (needed : List Item) : Nat :=
  if needed = [] then 0 else 1 + (needed.map depth).foldr max 0

theorem depthOver_eq_zero_iff : depthOver depth needed = 0 ↔ needed = [] := by
  unfold depthOver
  split
  · rename_i hNone
    exact iff_of_true rfl hNone
  · rename_i hSome
    exact iff_of_false (by omega) hSome

theorem depthOver_congr (h : ∀ b ∈ needed, depth b = other b) :
    depthOver depth needed = depthOver other needed := by
  rw [depthOver, depthOver, List.map_congr_left h]

theorem depthOver_deepest {b : Item} (hMem : b ∈ needed) (hDeepest : ∀ a ∈ needed, depth a ≤ depth b) :
    depthOver depth needed = depth b + 1 := by
  have hMost : (needed.map depth).foldr max 0 ≤ depth b := by
    apply List.max_le_of_forall_le
    intro n hDepth
    obtain ⟨a, hNeeded, rfl⟩ := List.mem_map.mp hDepth
    exact hDeepest a hNeeded
  have hLeast : depth b ≤ (needed.map depth).foldr max 0 :=
    List.le_max_of_le (List.mem_map_of_mem hMem) (Nat.le_refl _)
  rw [depthOver, if_neg (List.ne_nil_of_mem hMem)]
  omega

/-- Items in an order that respects what they need have depths. -/
theorem exists_depth [DecidableEq Item] {order : List Item} (hDistinct : order.Nodup)
    (h : Every (fun past a => ∀ b ∈ edges a, b ∈ past) order) :
    ∃ depth : Item → Nat, ∀ a ∈ order, depth a = depthOver depth (edges a) := by
  induction order using List.reverseRecOn with
  | nil => exact ⟨fun _ => 0, by simp⟩
  | append_singleton order last ih =>
      obtain ⟨hEvery, hLast⟩ := every_concat.mp h
      have hNew : last ∉ order := fun hMem =>
        (List.nodup_append.mp hDistinct).2.2 last hMem last (by simp) rfl
      obtain ⟨depth, hDepth⟩ := ih (List.nodup_append.mp hDistinct).1 hEvery
      let depth' := Function.update depth last (depthOver depth (edges last))
      have hKept : ∀ needed : List Item, (∀ b ∈ needed, b ∈ order) →
          depthOver depth' needed = depthOver depth needed := by
        intro needed hOld
        apply depthOver_congr
        intro b hMem
        have hOther : b ≠ last := fun hSame => hNew (hSame ▸ hOld b hMem)
        exact Function.update_of_ne hOther _ _
      refine ⟨depth', fun a hMem => ?_⟩
      rcases List.mem_append.mp hMem with hOld | hLastMem
      · have hOther : a ≠ last := fun hSame => hNew (hSame ▸ hOld)
        have hBefore : ∀ b ∈ edges a, b ∈ order := by
          obtain ⟨past, later, rfl⟩ := List.append_of_mem hOld
          exact fun b hDep => List.mem_append_left _ (hEvery past a later rfl b hDep)
        rw [hKept _ hBefore, ← hDepth a hOld]
        exact Function.update_of_ne hOther _ _
      · obtain rfl := List.mem_singleton.mp hLastMem
        rw [hKept _ hLast]
        exact Function.update_self ..

end Depth

end Execution
