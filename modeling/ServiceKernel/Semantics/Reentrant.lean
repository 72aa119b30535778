import ServiceKernel.Semantics.Execution

/-! Calls that deliver to callbacks before they return, where a callback may make
calls of its own. A call takes effect in one step; what its callbacks then do
is any finite tree of further calls, and a callback may panic at the end of it.
In the order in which the steps take effect such a tree is a run. -/
namespace Reentrant

open Execution

variable {State Label Callback : Type}

mutual

/-- Calls made one after the other, each with the deliveries it makes before it
returns. -/
inductive Acts (Label Callback : Type) where
  | nil
  | cons (label : Label) (deliveries : Deliveries Label Callback) (rest : Acts Label Callback)

/-- Callbacks invoked one after the other, each with the calls it makes and whether it
panics in the end. -/
inductive Deliveries (Label Callback : Type) where
  | nil
  | cons (callback : Callback) (acts : Acts Label Callback) (panicked : Bool)
      (rest : Deliveries Label Callback)

end

/-- The callbacks that were invoked, in order. -/
def Deliveries.callbacks : Deliveries Label Callback → List Callback
  | .nil => []
  | .cons callback _ _ rest => callback :: rest.callbacks

mutual

/-- The steps of a tree of calls in the order in which they take effect. -/
def Acts.flatten : Acts Label Callback → List Label
  | .nil => []
  | .cons label deliveries rest => label :: (deliveries.flatten ++ rest.flatten)

def Deliveries.flatten : Deliveries Label Callback → List Label
  | .nil => []
  | .cons _ acts _ rest => acts.flatten ++ rest.flatten

end

mutual

/-- Every call of the tree has the property: it is told the steps that took effect
before it, the call itself and the callbacks that were invoked for it. -/
def Acts.Each (good : List Label → Label → List Callback → Prop) :
    List Label → Acts Label Callback → Prop
  | _, .nil => True
  | before, .cons label deliveries rest => good before label deliveries.callbacks ∧
      deliveries.Each good (before ++ [label]) ∧
      rest.Each good (before ++ label :: deliveries.flatten)

def Deliveries.Each (good : List Label → Label → List Callback → Prop) :
    List Label → Deliveries Label Callback → Prop
  | _, .nil => True
  | before, .cons _ acts _ rest => acts.Each good before ∧ rest.Each good (before ++ acts.flatten)

end

section Performs

variable (step : State → Label → State → Prop) (callbacks : Label → List Callback)

mutual

/-- The calls lead from one state to another. Each takes effect in one step, which
settles the callbacks to invoke; the next call comes after all of them. -/
inductive Performs : State → Acts Label Callback → State → Prop where
  | nil (s : State) : Performs s .nil s
  | cons {s s₁ s₂ s' : State} {label : Label} {deliveries : Deliveries Label Callback}
      {rest : Acts Label Callback} (first : step s label s₁)
      (deliver : Delivers (callbacks label) s₁ deliveries s₂) (next : Performs s₂ rest s') :
      Performs s (.cons label deliveries rest) s'

/-- The callbacks are invoked in order. A panic ends the calls of the callback it comes
from and nothing else. -/
inductive Delivers : List Callback → State → Deliveries Label Callback → State → Prop where
  | nil (s : State) : Delivers [] s .nil s
  | cons {s s₁ s' : State} {callback : Callback} {others : List Callback}
      {acts : Acts Label Callback} {panicked : Bool} {rest : Deliveries Label Callback}
      (invoke : Performs s acts s₁) (next : Delivers others s₁ rest s') :
      Delivers (callback :: others) s (.cons callback acts panicked rest) s'

end

variable {step callbacks}

/-- Whatever the callbacks do, the ones invoked are the ones settled at the start. -/
theorem Delivers.invoked : ∀ {others : List Callback} {s s' : State}
    {deliveries : Deliveries Label Callback}, Delivers step callbacks others s deliveries s' →
    deliveries.callbacks = others
  | _, _, _, .nil, h => by
      cases h
      rfl
  | _, _, _, .cons callback acts panicked rest, h => by
      cases h with
      | cons invoke next => rw [Deliveries.callbacks, next.invoked]

mutual

/-- In the order in which they take effect the calls are a run. -/
theorem Performs.runs : ∀ {s s' : State} {acts : Acts Label Callback},
    Performs step callbacks s acts s' → Runs step s acts.flatten s'
  | _, _, .nil, h => by
      cases h
      exact Runs.zero _
  | _, _, .cons label deliveries rest, h => by
      cases h with
      | cons first deliver next => exact Runs.cons first (deliver.runs.trans next.runs)

theorem Delivers.runs : ∀ {others : List Callback} {s s' : State}
    {deliveries : Deliveries Label Callback}, Delivers step callbacks others s deliveries s' →
    Runs step s deliveries.flatten s'
  | _, _, _, .nil, h => by
      cases h
      exact Runs.zero _
  | _, _, _, .cons callback acts panicked rest, h => by
      cases h with
      | cons invoke next => exact invoke.runs.trans next.runs

end

/-- An invariant of the steps so far and the state holds after every run. -/
theorem kept_run {inv : List Label → State → Prop}
    (hKeep : ∀ before s label s', inv before s → step s label s' → inv (before ++ [label]) s')
    {before : List Label} {s s' : State} {labels : List Label} (h : inv before s)
    (run : Runs step s labels s') : inv (before ++ labels) s' := by
  induction run with
  | zero => simpa using h
  | succ prior last ih => simpa using hKeep _ _ _ _ ih last

mutual

/-- What a step guarantees of itself under an invariant holds of every call of the tree,
however deep. -/
theorem Performs.each {inv : List Label → State → Prop}
    {good : List Label → Label → List Callback → Prop}
    (hKeep : ∀ before s label s', inv before s → step s label s' → inv (before ++ [label]) s')
    (hGood : ∀ before s label s', inv before s → step s label s' →
      good before label (callbacks label)) :
    ∀ {before : List Label} {s s' : State} {acts : Acts Label Callback}, inv before s →
      Performs step callbacks s acts s' → acts.Each good before
  | _, _, _, .nil, _, _ => trivial
  | before, s, _, .cons label deliveries rest, hInv, h => by
      cases h with
      | cons first deliver next =>
          have hFirst := hKeep _ _ _ _ hInv first
          have hAfter := kept_run hKeep hFirst deliver.runs
          refine ⟨?_, deliver.each hKeep hGood hFirst, next.each hKeep hGood (by simpa using hAfter)⟩
          rw [deliver.invoked]
          exact hGood _ _ _ _ hInv first

theorem Delivers.each {inv : List Label → State → Prop}
    {good : List Label → Label → List Callback → Prop}
    (hKeep : ∀ before s label s', inv before s → step s label s' → inv (before ++ [label]) s')
    (hGood : ∀ before s label s', inv before s → step s label s' →
      good before label (callbacks label)) :
    ∀ {before : List Label} {others : List Callback} {s s' : State}
      {deliveries : Deliveries Label Callback}, inv before s →
      Delivers step callbacks others s deliveries s' → deliveries.Each good before
  | _, _, _, _, .nil, _, _ => trivial
  | _, _, _, _, .cons callback acts panicked rest, hInv, h => by
      cases h with
      | cons invoke next =>
          exact ⟨invoke.each hKeep hGood hInv,
            next.each hKeep hGood (kept_run hKeep hInv invoke.runs)⟩

end

/-- Calls that deliver to nobody, one after the other. -/
def Acts.flat (labels : List Label) : Acts Label Callback :=
  labels.foldr (fun label rest => .cons label .nil rest) .nil

theorem flatten_flat (labels : List Label) :
    (Acts.flat labels : Acts Label Callback).flatten = labels := by
  induction labels with
  | nil => rfl
  | cons label rest ih => exact congrArg (label :: ·) ih

theorem performs_flat {labels : List Label} (hNone : ∀ label ∈ labels, callbacks label = [])
    {s s' : State} (run : Runs step s labels s') : Performs step callbacks s (.flat labels) s' := by
  induction labels generalizing s with
  | nil =>
      obtain rfl := Runs.nil_iff.mp run
      exact Performs.nil _
  | cons label rest ih =>
      obtain ⟨middle, first, others⟩ := Runs.cons_iff.mp run
      refine Performs.cons first ?_ (ih (fun other hMem => hNone other (by simp [hMem])) others)
      rw [hNone label (by simp)]
      exact Delivers.nil _

end Performs

end Reentrant
