import ServiceKernel.Semantics.Program

/-! A value that calls change under a lock and show to observers after they have released
it. What is shown last is what is held, unless a call in progress has yet to show it; the
lemmas tell what each kind of operation does to that. -/
namespace Interleaving

variable {S : Signature} {Thread Shared Event Call Result Value : Type}

/-- What the last event that shows something shows. -/
def lastShown (shows : Event → Option Value) (trace : List (Thread × Event)) : Option Value :=
  (trace.filterMap fun entry => shows entry.2).getLast?

theorem lastShown_concat (shows : Event → Option Value) (trace : List (Thread × Event)) (t : Thread)
    (event : Event) : lastShown shows (trace ++ [(t, event)]) =
      (shows event).or (lastShown shows trace) := by
  rw [lastShown, List.filterMap_append]
  cases hShows : shows event with
  | none => simp [hShows, lastShown]
  | some value => simp [hShows]

/-- A value held in the shared state, what observers take it for at first, what the events
show of it, and what the rest of a call will yet show. -/
structure Display (S : Signature) (Thread Shared Event Result Value : Type) where
  held : Shared → Value
  initial : Value
  shows : Event → Option Value
  owes : Program S Result → Option Value

namespace Display

variable (d : Display S Thread Shared Event Result Value)

def shown (trace : List (Thread × Event)) : Value := (lastShown d.shows trace).getD d.initial

/-- What a thread has yet to show. -/
def owed : Status S Call Result → Option Value
  | .idle => none
  | .running _ rest => d.owes rest

/-- Some other thread has yet to show the value. -/
def AwaitedBesides (c : Config S Thread Shared Event Call Result) (t : Thread) (value : Value) : Prop :=
  ∃ u, u ≠ t ∧ d.owed (c.threads u) = some value

/-- What is held is shown, or will be. -/
def Current (c : Config S Thread Shared Event Call Result) : Prop :=
  d.shown c.world.trace = d.held c.world.shared ∨
    ∃ t, d.owed (c.threads t) = some (d.held c.world.shared)

/-- What is held was shown last, or is what observers take it for without being shown. -/
def Seen (w : World Thread Shared Event) : Prop :=
  lastShown d.shows w.trace = some (d.held w.shared) ∨
    d.held w.shared = d.initial ∧ lastShown d.shows w.trace = none

variable {d} {c : Config S Thread Shared Event Call Result} {w : World Thread Shared Event} {t : Thread}

theorem seen_iff : d.Seen w ↔ d.shown w.trace = d.held w.shared := by
  unfold Seen shown
  cases lastShown d.shows w.trace with
  | none => simp [eq_comm]
  | some value => simp

/-- With no call in progress nothing is left to be shown. -/
theorem Current.seen (h : d.Current c) (hQuiet : c.Quiescent) : d.Seen c.world := by
  rw [seen_iff]
  rcases h with hShown | ⟨t, hOwed⟩
  · exact hShown
  · rw [hQuiet t] at hOwed
    cases hOwed

variable [DecidableEq Thread] {status : Status S Call Result}

/-- What one thread comes to leaves alone what the others have yet to show. -/
theorem current_update_iff : d.Current ⟨w, Function.update c.threads t status⟩ ↔
    d.shown w.trace = d.held w.shared ∨ d.owed status = some (d.held w.shared) ∨
      d.AwaitedBesides c t (d.held w.shared) := by
  constructor
  · rintro (hShown | ⟨u, hOwed⟩)
    · exact Or.inl hShown
    · change d.owed (Function.update c.threads t status u) = _ at hOwed
      rcases eq_or_ne u t with rfl | hne
      · rw [Function.update_self] at hOwed
        exact Or.inr (Or.inl hOwed)
      · rw [Function.update_of_ne hne] at hOwed
        exact Or.inr (Or.inr ⟨u, hne, hOwed⟩)
  · rintro (hShown | hOwed | ⟨u, hne, hOwed⟩)
    · exact Or.inl hShown
    · refine Or.inr ⟨t, ?_⟩
      show d.owed (Function.update c.threads t status t) = _
      rw [Function.update_self]
      exact hOwed
    · refine Or.inr ⟨u, ?_⟩
      show d.owed (Function.update c.threads t status u) = _
      rw [Function.update_of_ne hne]
      exact hOwed

/-- A step that shows nothing and changes neither what is held nor what is owed. -/
theorem Current.aside (h : d.Current c) (hShown : d.shown w.trace = d.shown c.world.trace)
    (hHeld : d.held w.shared = d.held c.world.shared) (hOwed : d.owed status = d.owed (c.threads t)) :
    d.Current ⟨w, Function.update c.threads t status⟩ := by
  rw [current_update_iff, hShown, hHeld, hOwed, ← current_update_iff, Function.update_eq_self]
  exact h

/-- A call begins with nothing to show. -/
theorem Current.call {k : Call} {rest : Program S Result} (h : d.Current c) (hIdle : c.threads t = .idle)
    (hBegin : d.owes rest = none) :
    d.Current { c with threads := Function.update c.threads t (.running k rest) } := by
  apply h.aside rfl rfl
  rw [hIdle]
  exact hBegin

/-- A call ends with nothing left to show. -/
theorem Current.ret {k : Call} {r : Result} (h : d.Current c) (hAt : c.threads t = .running k (.done r))
    (hEnd : d.owes (.done r) = none) :
    d.Current { c with threads := Function.update c.threads t .idle } := by
  apply h.aside rfl rfl
  rw [hAt]
  exact hEnd.symm

section Operation

variable {M : Machine S Thread Shared Event} {k : Call} {o : S.Op} {next : S.Ans o → Program S Result}
  {a : S.Ans o} {shared : Shared} {value : Value}

omit [DecidableEq Thread] in
theorem shown_after (h : d.shows (M.event o a) = none) :
    d.shown (M.after c.world t o a shared).trace = d.shown c.world.trace := by
  rw [shown, Machine.after_trace, lastShown_concat, h]
  rfl

/-- An operation that has nothing to do with the value. -/
theorem Current.op (h : d.Current c) (hAt : c.threads t = .running k (.perform o next))
    (hShows : d.shows (M.event o a) = none) (hHeld : d.held shared = d.held c.world.shared)
    (hOwes : d.owes (next a) = d.owes (.perform o next)) :
    d.Current ⟨M.after c.world t o a shared, Function.update c.threads t (.running k (next a))⟩ := by
  apply h.aside (shown_after hShows) hHeld
  rw [hAt]
  exact hOwes

/-- An operation after which the call has to show what is held. -/
theorem current_of_owes (h : d.owes (next a) = some (d.held shared)) :
    d.Current ⟨M.after c.world t o a shared, Function.update c.threads t (.running k (next a))⟩ :=
  current_update_iff.mpr (Or.inr (Or.inl h))

/-- An operation after which the call has nothing left to show. -/
theorem current_settled_iff (h : d.owes (next a) = none) :
    d.Current ⟨M.after c.world t o a shared, Function.update c.threads t (.running k (next a))⟩ ↔
      ((d.shows (M.event o a)).or (lastShown d.shows c.world.trace)).getD d.initial = d.held shared ∨
        d.AwaitedBesides c t (d.held shared) := by
  have hNone : d.owed (.running k (next a)) = none := h
  rw [current_update_iff, hNone, shown, Machine.after_trace, lastShown_concat]
  simp

end Operation

end Display

end Interleaving
