import ServiceKernel.Semantics.Program

/-! Typestates: an abstract automaton that the control flow of every program
follows. Each thread has a ghost position in it, so an invariant of the world
may speak of where the threads are. What the automaton says of a step is
computed from the position, the operation and its answer alone. -/
namespace Interleaving

variable {S : Signature} {α β Thread Shared Event Call Result : Type}

/-- `next p o a` is the position after the answer `a` to `o` at `p`. It is `none` when
`o` must not be performed at `p`, or cannot be answered `a` there. -/
structure Protocol (S : Signature) where
  Position : Type
  rest : Position
  next : Position → (o : S.Op) → S.Ans o → Option Position

namespace Protocol

variable (P : Protocol S)

/-- Some answer to the operation leads on from the position. -/
def Permits (p : P.Position) (o : S.Op) : Prop := ∃ a, (P.next p o a).isSome

/-- From the position the program performs permitted operations only, whatever
answers the automaton knows of, and stops where `exit` says. -/
def Follows (exit : α → P.Position → Prop) : Program S α → P.Position → Prop
  | .done a => exit a
  | .perform o next => fun p =>
      P.Permits p o ∧ ∀ a p', P.next p o a = some p' → Follows exit (next a) p'

variable {P} {exit exit' : α → P.Position → Prop} {p : P.Position} {program : Program S α}

@[simp] theorem follows_done {a : α} : P.Follows exit (.done a) p ↔ exit a p := Iff.rfl

@[simp] theorem follows_perform {o : S.Op} {next : S.Ans o → Program S α} :
    P.Follows exit (.perform o next) p ↔
      P.Permits p o ∧ ∀ a p', P.next p o a = some p' → P.Follows exit (next a) p' := Iff.rfl

theorem Follows.mono (h : P.Follows exit program p) (hExit : ∀ a p, exit a p → exit' a p) :
    P.Follows exit' program p := by
  induction program generalizing p with
  | done a => exact hExit a p h
  | perform o next ih => exact ⟨h.1, fun a p' hNext => ih a (h.2 a p' hNext)⟩

/-- Sequencing: where the first program stops the second takes over. -/
theorem Follows.bind {exit : β → P.Position → Prop} {mid : α → P.Position → Prop}
    {k : α → Program S β} (h : P.Follows mid program p)
    (hNext : ∀ a p, mid a p → P.Follows exit (k a) p) : P.Follows exit (program >>= k) p := by
  induction program generalizing p with
  | done a => exact hNext a p h
  | perform o next ih => exact ⟨h.1, fun a p' hStep => ih a (h.2 a p' hStep)⟩

/-- Sequencing through one known position. -/
theorem Follows.seq {exit : β → P.Position → Prop} {middle : P.Position} {k : α → Program S β}
    (h : P.Follows (fun _ q => q = middle) program p) (hNext : ∀ a, P.Follows exit (k a) middle) :
    P.Follows exit (program >>= k) p :=
  h.bind fun a _ hEq => hEq ▸ hNext a

/-- An operation that every answer takes to the same position. -/
theorem Follows.step {o : S.Op} {next : S.Ans o → Program S α} {p' : P.Position}
    [Nonempty (S.Ans o)] (hNext : ∀ a, P.next p o a = some p')
    (h : ∀ a, P.Follows exit (next a) p') : P.Follows exit (.perform o next) p := by
  obtain ⟨a⟩ := ‹Nonempty (S.Ans o)›
  refine ⟨⟨a, by simp [hNext]⟩, fun a q hStep => ?_⟩
  obtain rfl : p' = q := Option.some.inj ((hNext a).symm.trans hStep)
  exact h a

/-- A program none of whose operations moves the position. -/
theorem Follows.of_all (allowed : S.Op → Prop) (hAll : program.All allowed)
    (hStay : ∀ o, allowed o → P.Permits p o ∧ ∀ a p', P.next p o a = some p' → p' = p) :
    P.Follows (fun _ q => q = p) program p := by
  induction program with
  | done a => rfl
  | perform o next ih =>
      obtain ⟨hPermits, hSame⟩ := hStay o hAll.1
      refine ⟨hPermits, fun a p' hNext => ?_⟩
      rw [hSame a p' hNext]
      exact ih a (hAll.2 a)

/-- A component's program keeps to its protocol inside a larger one that takes the
component's operations where the component's own protocol does. -/
theorem Follows.lift {T : Signature} {Q : Protocol T} {op : S.Op → T.Op}
    {ans : ∀ o, T.Ans (op o) → S.Ans o} {f : P.Position → Q.Position}
    (hAns : ∀ o a, ∃ a', ans o a' = a)
    (hNext : ∀ p o a, Q.next (f p) (op o) a = (P.next p o (ans o a)).map f)
    (h : P.Follows exit program p) :
    Q.Follows (fun a q => ∃ p, q = f p ∧ exit a p) (program.lift op ans) (f p) := by
  induction program generalizing p with
  | done a => exact ⟨p, rfl, h⟩
  | perform o next ih =>
      obtain ⟨⟨a, hSome⟩, hRest⟩ := h
      refine ⟨?_, fun a' q hStep => ?_⟩
      · obtain ⟨a', rfl⟩ := hAns o a
        exact ⟨a', by simpa [hNext] using hSome⟩
      · obtain ⟨p', hStep', rfl⟩ := Option.map_eq_some_iff.mp ((hNext p o a').symm.trans hStep)
        exact ih _ (hRest _ p' hStep')

/-- The protocol in an environment that gives only some of the answers. -/
def restrict (P : Protocol S) (allows : (o : S.Op) → S.Ans o → Bool) : Protocol S where
  Position := P.Position
  rest := P.rest
  next p o a := if allows o a then P.next p o a else none

theorem restrict_allowed {allows : (o : S.Op) → S.Ans o → Bool} {o : S.Op} {a : S.Ans o}
    (h : allows o a = true) : (P.restrict allows).next p o a = P.next p o a := if_pos h

theorem restrict_eq_some {allows : (o : S.Op) → S.Ans o → Bool} {o : S.Op} {a : S.Ans o}
    {p' : P.Position} : (P.restrict allows).next p o a = some p' ↔
      allows o a = true ∧ P.next p o a = some p' := Option.ite_none_right_eq_some

/-- Where every answer is allowed the restriction makes no difference. -/
theorem Follows.restrict {allows : (o : S.Op) → S.Ans o → Bool} {free : S.Op → Prop}
    (hFree : ∀ o, free o → ∀ a, allows o a = true) (hAll : program.All free)
    (h : P.Follows exit program p) :
    (P.restrict allows).Follows exit program p := by
  induction program generalizing p with
  | done a => exact h
  | perform o next ih =>
      obtain ⟨hAllowed, hLater⟩ := hAll
      have hSame : ∀ a, (P.restrict allows).next p o a = P.next p o a :=
        fun a => restrict_allowed (hFree o hAllowed a)
      obtain ⟨⟨a, hSome⟩, hRest⟩ := h
      refine ⟨⟨a, by rw [hSame]; exact hSome⟩, fun a p' hNext => ?_⟩
      rw [hSame] at hNext
      exact ih a (hLater a) (hRest a p' hNext)

end Protocol

section Pairs

variable {First Second : Type} [DecidableEq Thread] (pos : Thread → First × Second) (t : Thread)
  (p : First × Second)

/-- Positions made of two parts are moved part by part. -/
theorem update_fst : (fun u => (Function.update pos t p u).1) =
    Function.update (fun u => (pos u).1) t p.1 := by
  funext u
  exact Function.apply_update (fun _ => Prod.fst) pos t p u

theorem update_snd : (fun u => (Function.update pos t p u).2) =
    Function.update (fun u => (pos u).2) t p.2 := by
  funext u
  exact Function.apply_update (fun _ => Prod.snd) pos t p u

end Pairs

section Sole

variable {Place : Type} [DecidableEq Thread] {place : Thread → Option Place} {here there : Place}
  {t : Thread}

/-- At most one thread is anywhere, and if one is, it is here. -/
structure Sole (place : Thread → Option Place) (here : Place) : Prop where
  at_place : ∀ t p, place t = some p → p = here
  alone : ∀ t u, (place t).isSome → (place u).isSome → t = u

omit [DecidableEq Thread] in
theorem Sole.of_none (h : ∀ t, place t = none) : Sole place here :=
  ⟨fun t p hPlace => by simp [h t] at hPlace, fun t u hT _ => by simp [h t] at hT⟩

theorem Sole.leave (h : Sole place here) (t : Thread) : Sole (Function.update place t none) here := by
  have hKept : ∀ u, (Function.update place t none u).isSome →
      Function.update place t none u = place u := by
    intro u hU
    rcases eq_or_ne u t with rfl | hne
    · simp at hU
    · simp [hne]
  refine ⟨fun u p hU => ?_, fun u v hU hV => ?_⟩
  · exact h.at_place u p (by rw [← hKept u (by simp [hU]), hU])
  · exact h.alone u v (by rwa [← hKept u hU]) (by rwa [← hKept v hV])

/-- Whoever is there alone moves on. -/
theorem Sole.move (hFree : ∀ u, u ≠ t → place u = none) :
    Sole (Function.update place t (some there)) there := by
  have hOnly : ∀ u, (Function.update place t (some there) u).isSome → u = t := by
    intro u hU
    by_contra hne
    simp [hne, hFree u hne] at hU
  refine ⟨fun u p hU => ?_, fun u v hU hV => (hOnly u hU).trans (hOnly v hV).symm⟩
  obtain rfl := hOnly u (by simp [hU])
  simpa using hU.symm

omit [DecidableEq Thread] in
theorem Sole.free (h : Sole place here) (hT : (place t).isSome) {u : Thread} (hne : u ≠ t) :
    place u = none := by
  by_contra hSome
  exact hne (h.alone u t (Option.isSome_iff_ne_none.mpr hSome) hT)

end Sole

/-- A system whose calls follow a protocol, with an invariant of the world and the
positions that every permitted step keeps. `within` are the positions that a
call can pass through. -/
structure Typestate (M : Machine S Thread Shared Event) (body : Call → Program S Result)
    [DecidableEq Thread] where
  protocol : Protocol S
  begins : Call → protocol.Position
  within : Call → protocol.Position → Prop
  returns : Call → Result → protocol.Position → Prop
  inv : (Thread → protocol.Position) → World Thread Shared Event → Prop
  within_begins : ∀ k, within k (begins k)
  within_next : ∀ k p o a p', within k p → protocol.next p o a = some p' → within k p'
  obeys : ∀ k, protocol.Follows (returns k) (body k) (begins k)
  enters : ∀ pos w t k, inv pos w → pos t = protocol.rest →
    inv (Function.update pos t (begins k)) w
  keeps : ∀ pos w t o a shared, inv pos w → protocol.Permits (pos t) o →
    M.exec t o a w.shared = some shared →
    ∃ p, protocol.next (pos t) o a = some p ∧
      inv (Function.update pos t p) (M.after w t o a shared)
  leaves : ∀ pos w t k r, inv pos w → returns k r (pos t) →
    inv (Function.update pos t protocol.rest) w

namespace Typestate

variable [DecidableEq Thread] {M : Machine S Thread Shared Event} {body : Call → Program S Result}
  (T : Typestate M body)

/-- What a thread's own status says of its position. -/
def AtPosition (p : T.protocol.Position) : Status S Call Result → Prop
  | .idle => p = T.protocol.rest
  | .running k program => T.within k p ∧ T.protocol.Follows (T.returns k) program p

/-- The positions fit what every thread has left to run. -/
def Typed (pos : Thread → T.protocol.Position)
    (c : Config S Thread Shared Event Call Result) : Prop :=
  T.inv pos c.world ∧ ∀ t, T.AtPosition (pos t) (c.threads t)

/-- How one step moves the positions. -/
def Moves (pos : Thread → T.protocol.Position) : Label S Thread Call →
    (Thread → T.protocol.Position) → Prop
  | .call t k, pos' => pos' = Function.update pos t (T.begins k)
  | .op t o a, pos' => ∃ p, T.protocol.next (pos t) o a = some p ∧ pos' = Function.update pos t p
  | .ret t, pos' => pos' = Function.update pos t T.protocol.rest

variable {T} {pos : Thread → T.protocol.Position}
  {start c c' : Config S Thread Shared Event Call Result} {label : Label S Thread Call}

theorem Typed.idle (h : T.Typed pos c) {t : Thread} (hIdle : c.threads t = .idle) :
    pos t = T.protocol.rest := by
  simpa [hIdle, AtPosition] using h.2 t

theorem Typed.running (h : T.Typed pos c) {t : Thread} {k : Call} {program : Program S Result}
    (hRun : c.threads t = .running k program) :
    T.within k (pos t) ∧ T.protocol.Follows (T.returns k) program (pos t) := by
  simpa [hRun, AtPosition] using h.2 t

theorem Typed.permits (h : T.Typed pos c) {t : Thread} {k : Call} {o : S.Op}
    {next : S.Ans o → Program S Result} (hRun : c.threads t = .running k (.perform o next)) :
    T.protocol.Permits (pos t) o := (h.running hRun).2.1

theorem Typed.returned (h : T.Typed pos c) {t : Thread} {k : Call} {r : Result}
    (hRun : c.threads t = .running k (.done r)) : T.returns k r (pos t) := (h.running hRun).2

theorem Typed.step (h : T.Typed pos c) (hStep : Step M body c label c') :
    ∃ pos', T.Moves pos label pos' ∧ T.Typed pos' c' := by
  cases hStep with
  | @call t k hIdle =>
      refine ⟨Function.update pos t (T.begins k), rfl, T.enters pos c.world t k h.1 (h.idle hIdle),
        fun u => ?_⟩
      rcases eq_or_ne u t with rfl | hne
      · simpa [AtPosition] using ⟨T.within_begins k, T.obeys k⟩
      · simpa [hne] using h.2 u
  | @op t k o next a shared hRun hExec =>
      obtain ⟨hWithin, hPermits, hRest⟩ := h.running hRun
      obtain ⟨p, hNext, hInv⟩ := T.keeps pos c.world t o a shared h.1 hPermits hExec
      refine ⟨Function.update pos t p, ⟨p, hNext, rfl⟩, hInv, fun u => ?_⟩
      rcases eq_or_ne u t with rfl | hne
      · simpa [AtPosition] using ⟨T.within_next k _ o a p hWithin hNext, hRest a p hNext⟩
      · simpa [hne] using h.2 u
  | @ret t k r hRun =>
      refine ⟨Function.update pos t T.protocol.rest, rfl,
        T.leaves pos c.world t k r h.1 (h.returned hRun), fun u => ?_⟩
      rcases eq_or_ne u t with rfl | hne
      · simp [AtPosition]
      · simpa [hne] using h.2 u

/-- A system that is idle somewhere in the invariant is typed. -/
theorem typed_start {w : World Thread Shared Event} (h : T.inv (fun _ => T.protocol.rest) w) :
    T.Typed (fun _ => T.protocol.rest) (Config.start w) := ⟨h, fun _ => rfl⟩

/-- In every reachable configuration all threads are somewhere in the automaton. -/
theorem typed_of_reachable (hStart : T.Typed pos start)
    (reach : Execution.Reachable (Step M body) start c) : ∃ pos', T.Typed pos' c :=
  reach.invariant (fun c => ∃ pos, T.Typed pos c) ⟨pos, hStart⟩ fun _ _ _ ⟨_, h⟩ hStep =>
    (h.step hStep).imp fun _ => And.right

/-- A fact about positions and configuration that every typed step keeps holds in every
reachable configuration, at positions that fit it. -/
theorem typed_invariant (inv : (Thread → T.protocol.Position) →
      Config S Thread Shared Event Call Result → Prop)
    (hStart : T.Typed pos start) (hInv : inv pos start)
    (hStep : ∀ pos c label pos' c', T.Typed pos c → inv pos c → Step M body c label c' →
      T.Moves pos label pos' → T.Typed pos' c' → inv pos' c')
    (reach : Execution.Reachable (Step M body) start c) : ∃ pos', T.Typed pos' c ∧ inv pos' c := by
  apply reach.invariant (fun c => ∃ pos, T.Typed pos c ∧ inv pos c) ⟨pos, hStart, hInv⟩
  rintro c label c' ⟨pos, hTyped, hHolds⟩ hTake
  obtain ⟨pos', hMoves, hTyped'⟩ := hTyped.step hTake
  exact ⟨pos', hTyped', hStep pos c label pos' c' hTyped hHolds hTake hMoves hTyped'⟩

/-- A call whose answers have all been allowed so far follows the restricted protocol.
What is `good` for a thread is read off the history. -/
theorem restricted_step {allows : (o : S.Op) → S.Ans o → Bool} {call : Call}
    {exit : Result → T.protocol.Position → Prop} (good : Thread → List (Thread × Event) → Prop)
    (hBody : (T.protocol.restrict allows).Follows exit (body call) (T.begins call))
    (hGood : ∀ u w t o a shared, good u (M.after w t o a shared).trace →
      good u w.trace ∧ (u = t → allows o a = true))
    (h : ∀ t p, c.threads t = .running call p → good t c.world.trace →
      (T.protocol.restrict allows).Follows exit p (pos t))
    (hStep : Step M body c label c') {pos' : Thread → T.protocol.Position}
    (hMoves : T.Moves pos label pos') : ∀ t p, c'.threads t = .running call p →
      good t c'.world.trace → (T.protocol.restrict allows).Follows exit p (pos' t) := by
  intro u p hRunning hHere
  cases hStep with
  | @call t k hIdle =>
      obtain rfl := hMoves
      rcases eq_or_ne u t with rfl | hne
      · simp only [Function.update_self, Status.running.injEq] at hRunning ⊢
        obtain ⟨rfl, rfl⟩ := hRunning
        exact hBody
      · simp only [Function.update_of_ne hne] at hRunning ⊢
        exact h u p hRunning hHere
  | @op t k o next a shared hRun hExec =>
      obtain ⟨place, hNext, rfl⟩ := hMoves
      obtain ⟨hBefore, hAllows⟩ := hGood u _ _ _ _ _ hHere
      rcases eq_or_ne u t with rfl | hne
      · simp only [Function.update_self, Status.running.injEq] at hRunning ⊢
        obtain ⟨rfl, rfl⟩ := hRunning
        exact (h u _ hRun hBefore).2 a place
          ((Protocol.restrict_allowed (hAllows rfl)).trans hNext)
      · simp only [Function.update_of_ne hne] at hRunning ⊢
        exact h u p hRunning hBefore
  | @ret t k r hRun =>
      obtain rfl := hMoves
      rcases eq_or_ne u t with rfl | hne
      · simp at hRunning
      · simp only [Function.update_of_ne hne] at hRunning ⊢
        exact h u p hRunning hHere

end Typestate

end Interleaving
