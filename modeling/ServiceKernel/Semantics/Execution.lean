import Mathlib.Data.List.Induction
import Mathlib.Logic.Relation

/-! Finite runs of a labelled transition relation. Labels carry what the
environment chose at each step, so a run is one schedule together with one
choice of answers. Nothing here depends on the system that is executed. -/
namespace Execution

variable {State Label : Type*}

/-- The labels of a run in order, from one state to another. -/
inductive Runs (step : State → Label → State → Prop) : State → List Label → State → Prop where
  | zero (s : State) : Runs step s [] s
  | succ {start middle finish : State} {labels : List Label} {label : Label}
      (prior : Runs step start labels middle) (last : step middle label finish) :
      Runs step start (labels ++ [label]) finish

/-- A state some run ends in. -/
def Reachable (step : State → Label → State → Prop) (start finish : State) : Prop :=
  ∃ labels, Runs step start labels finish

variable {step other : State → Label → State → Prop} {start middle finish : State}
  {labels more : List Label} {label : Label}

theorem Runs.single (h : step start label finish) : Runs step start [label] finish :=
  Runs.succ (Runs.zero start) h

theorem Runs.trans (left : Runs step start labels middle) (right : Runs step middle more finish) :
    Runs step start (labels ++ more) finish := by
  induction right with
  | zero => simpa using left
  | succ prior last ih =>
      simpa [List.append_assoc] using Runs.succ ih last

theorem Runs.nil_iff : Runs step start [] finish ↔ finish = start := by
  constructor
  · intro run
    generalize hNil : ([] : List Label) = none at run
    cases run with
    | zero => rfl
    | succ prior last => simp at hNil
  · rintro rfl
    exact Runs.zero _

/-- The last step of a run. -/
theorem Runs.concat_iff : Runs step start (labels ++ [label]) finish ↔
    ∃ middle, Runs step start labels middle ∧ step middle label finish := by
  constructor
  · intro run
    generalize hWhole : labels ++ [label] = whole at run
    cases run with
    | zero => simp at hWhole
    | succ prior last =>
        obtain ⟨rfl, hLast⟩ := List.append_inj' hWhole rfl
        obtain rfl := List.singleton_inj.mp hLast
        exact ⟨_, prior, last⟩
  · rintro ⟨middle, prior, last⟩
    exact Runs.succ prior last

/-- A run over two lists of labels passes through a state between them. -/
theorem Runs.append_iff : Runs step start (labels ++ more) finish ↔
    ∃ middle, Runs step start labels middle ∧ Runs step middle more finish := by
  constructor
  · intro run
    induction more using List.reverseRecOn generalizing finish with
    | nil => exact ⟨finish, by simpa using run, Runs.zero _⟩
    | append_singleton more label ih =>
        rw [← List.append_assoc] at run
        obtain ⟨before, prior, last⟩ := Runs.concat_iff.mp run
        obtain ⟨middle, hLeft, hRight⟩ := ih prior
        exact ⟨middle, hLeft, Runs.succ hRight last⟩
  · rintro ⟨middle, hLeft, hRight⟩
    exact hLeft.trans hRight

/-- The first step of a run. -/
theorem Runs.cons_iff : Runs step start (label :: labels) finish ↔
    ∃ middle, step start label middle ∧ Runs step middle labels finish := by
  rw [← List.singleton_append, Runs.append_iff]
  constructor
  · rintro ⟨middle, hFirst, hRest⟩
    rw [← List.nil_append [label]] at hFirst
    obtain ⟨before, hNone, hStep⟩ := Runs.concat_iff.mp hFirst
    obtain rfl := Runs.nil_iff.mp hNone
    exact ⟨middle, hStep, hRest⟩
  · rintro ⟨middle, hFirst, hRest⟩
    exact ⟨middle, Runs.single hFirst, hRest⟩

theorem Runs.cons (first : step start label middle) (rest : Runs step middle labels finish) :
    Runs step start (label :: labels) finish :=
  Runs.cons_iff.mpr ⟨middle, first, rest⟩

theorem Runs.reachable (run : Runs step start labels finish) : Reachable step start finish :=
  ⟨labels, run⟩

theorem Reachable.refl (s : State) : Reachable step s s := ⟨[], Runs.zero s⟩

theorem Reachable.tail (h : Reachable step start middle) (last : step middle label finish) :
    Reachable step start finish := by
  obtain ⟨labels, run⟩ := h
  exact ⟨_, Runs.succ run last⟩

theorem Reachable.trans (left : Reachable step start middle)
    (right : Reachable step middle finish) : Reachable step start finish := by
  obtain ⟨labels, hLeft⟩ := left
  obtain ⟨more, hRight⟩ := right
  exact ⟨_, hLeft.trans hRight⟩

/-- What holds at the start and is kept by every step holds at the end. -/
theorem Reachable.invariant (inv : State → Prop) (reach : Reachable step start finish)
    (hStart : inv start) (hStep : ∀ s label s', inv s → step s label s' → inv s') :
    inv finish := by
  obtain ⟨labels, run⟩ := reach
  induction run with
  | zero => exact hStart
  | succ prior last ih => exact hStep _ _ _ ih last

/-- Runs are monotone in the step relation. -/
theorem Runs.mono (run : Runs step start labels finish)
    (h : ∀ s label s', step s label s' → other s label s') :
    Runs other start labels finish := by
  induction run with
  | zero => exact Runs.zero _
  | succ prior last ih => exact Runs.succ ih (h _ _ _ last)

theorem Reachable.mono (reach : Reachable step start finish)
    (h : ∀ s label s', step s label s' → other s label s') : Reachable other start finish := by
  obtain ⟨labels, run⟩ := reach
  exact ⟨labels, run.mono h⟩

/-- Execute labels one after the other, as long as each can be taken. -/
def replay (exec : State → Label → Option State) : State → List Label → Option State
  | s, [] => some s
  | s, label :: labels => (exec s label).bind fun s' => replay exec s' labels

/-- A replay goes on where an earlier one ended. -/
theorem replay_append {exec : State → Label → Option State} {more : List Label} :
    replay exec start (labels ++ more) =
      (replay exec start labels).bind fun s => replay exec s more := by
  induction labels generalizing start with
  | nil => rfl
  | cons label labels ih => simp only [List.cons_append, replay, ih, Option.bind_assoc]

/-- An executed replay is a run. -/
theorem runs_of_replay {exec : State → Label → Option State}
    (h : replay exec start labels = some finish) :
    Runs (fun s label s' => exec s label = some s') start labels finish := by
  induction labels generalizing start with
  | nil =>
      obtain rfl := Option.some.inj h
      exact Runs.zero _
  | cons label labels ih =>
      obtain ⟨s', hStep, hRest⟩ := Option.bind_eq_some_iff.mp h
      have hFirst : Runs (fun s label s' => exec s label = some s') start [label] s' :=
        Runs.single hStep
      exact hFirst.trans (ih hRest)

/-- A step whose label and source state also meet a condition. -/
def Restrict (step : State → Label → State → Prop) (cond : State → Label → Prop) :
    State → Label → State → Prop :=
  fun s label s' => step s label s' ∧ cond s label

/-- The labels of a run whose steps are restricted by their labels. -/
theorem Runs.labels_meet {cond : Label → Prop}
    (run : Runs (Restrict step fun _ label => cond label) start labels finish) :
    ∀ label ∈ labels, cond label := by
  induction run with
  | zero => intro label hMem; cases hMem
  | succ prior last ih =>
      intro label hMem
      rcases List.mem_append.mp hMem with hEarlier | hLast
      · exact ih label hEarlier
      · rw [List.mem_singleton.mp hLast]
        exact last.2

/-- Where every state that the invariant holds of has a step that keeps it, there are runs
of every length. -/
theorem exists_run_of_length (inv : State → Prop) (hStart : inv start)
    (hNext : ∀ s, inv s → ∃ label s', step s label s' ∧ inv s') (n : Nat) :
    ∃ labels finish, labels.length = n ∧ Runs step start labels finish ∧ inv finish := by
  induction n with
  | zero => exact ⟨[], start, rfl, Runs.zero _, hStart⟩
  | succ n ih =>
      obtain ⟨labels, middle, hLength, run, hMiddle⟩ := ih
      obtain ⟨label, finish, hStep, hFinish⟩ := hNext middle hMiddle
      refine ⟨labels ++ [label], finish, ?_, Runs.succ run hStep, hFinish⟩
      rw [List.length_append, hLength, List.length_singleton]

/-- A replay that checks the condition at each step is a run under it. -/
theorem restricted_of_replay {exec : State → Label → Option State} {cond : State → Label → Prop}
    [∀ s label, Decidable (cond s label)]
    (h : replay (fun s label => if cond s label then exec s label else none) start labels =
      some finish) :
    Runs (Restrict (fun s label s' => exec s label = some s') cond) start labels finish := by
  apply (runs_of_replay h).mono
  intro s label s' hStep
  by_cases hCond : cond s label
  · rw [if_pos hCond] at hStep
    exact ⟨hStep, hCond⟩
  · rw [if_neg hCond] at hStep
    cases hStep

/-- A step that ends in a good state. -/
def Within (step : State → Label → State → Prop) (good : State → Prop) :
    State → Label → State → Prop :=
  fun s label s' => step s label s' ∧ good s'

theorem Runs.within_good {good : State → Prop} (run : Runs (Within step good) start labels finish)
    (hGood : good start) : good finish := by
  cases run with
  | zero => exact hGood
  | succ prior last => exact last.2

/-- If a condition on a step decides whether goodness survives it, the runs that
stay among good states are exactly the runs whose steps all meet the condition.
`base` is an invariant of the unrestricted system that the step lemma may use. -/
theorem runs_within_iff_restrict (good base : State → Prop) {cond : State → Label → Prop}
    (hGood : good start) (hBase : base start)
    (keep : ∀ s label s', base s → step s label s' → base s')
    (decides : ∀ s label s', base s → good s → step s label s' → (good s' ↔ cond s label)) :
    Runs (Within step good) start labels finish ↔ Runs (Restrict step cond) start labels finish := by
  suffices ∀ labels finish,
      (Runs (Within step good) start labels finish →
        Runs (Restrict step cond) start labels finish ∧ good finish ∧ base finish) ∧
      (Runs (Restrict step cond) start labels finish →
        Runs (Within step good) start labels finish ∧ good finish ∧ base finish) from
    ⟨fun h => ((this _ _).1 h).1, fun h => ((this _ _).2 h).1⟩
  intro labels finish
  constructor
  · intro run
    induction run with
    | zero => exact ⟨Runs.zero _, hGood, hBase⟩
    | succ prior last ih =>
        obtain ⟨hRun, hMiddle, hKept⟩ := ih
        exact ⟨Runs.succ hRun ⟨last.1, (decides _ _ _ hKept hMiddle last.1).mp last.2⟩, last.2,
          keep _ _ _ hKept last.1⟩
  · intro run
    induction run with
    | zero => exact ⟨Runs.zero _, hGood, hBase⟩
    | succ prior last ih =>
        obtain ⟨hRun, hMiddle, hKept⟩ := ih
        have hNext := (decides _ _ _ hKept hMiddle last.1).mpr last.2
        exact ⟨Runs.succ hRun ⟨last.1, hNext⟩, hNext, keep _ _ _ hKept last.1⟩

/-- A step that is itself good. -/
def Guarded (step good : State → Label → State → Prop) : State → Label → State → Prop :=
  fun s label s' => step s label s' ∧ good s label s'

/-- If a condition on a step decides whether it is good, the runs of good steps are
exactly the runs whose steps all meet the condition. -/
theorem runs_guarded_iff_restrict (base : State → Prop) {good : State → Label → State → Prop}
    {cond : State → Label → Prop} (hBase : base start)
    (keep : ∀ s label s', base s → step s label s' → base s')
    (decides : ∀ s label s', base s → step s label s' → (good s label s' ↔ cond s label)) :
    Runs (Guarded step good) start labels finish ↔ Runs (Restrict step cond) start labels finish := by
  constructor
  · intro run
    suffices Runs (Restrict step cond) start labels finish ∧ base finish from this.1
    induction run with
    | zero => exact ⟨Runs.zero _, hBase⟩
    | succ prior last ih =>
        exact ⟨Runs.succ ih.1 ⟨last.1, (decides _ _ _ ih.2 last.1).mp last.2⟩,
          keep _ _ _ ih.2 last.1⟩
  · intro run
    suffices Runs (Guarded step good) start labels finish ∧ base finish from this.1
    induction run with
    | zero => exact ⟨Runs.zero _, hBase⟩
    | succ prior last ih =>
        exact ⟨Runs.succ ih.1 ⟨last.1, (decides _ _ _ ih.2 last.1).mpr last.2⟩,
          keep _ _ _ ih.2 last.1⟩

end Execution
