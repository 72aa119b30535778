import Mathlib.Data.List.Basic
import ServiceKernel.Semantics.Typestate

/-! Two protocols at once, and the outbox: an operation may oblige its thread to publish
notes, one after another, before the thread does anything else. As long as only
one thread at a time has notes left, what is published is what was owed, in order. -/
namespace Interleaving

variable {S : Signature} {α Thread Shared Event Note : Type}

section Product

/-- Two protocols that a program follows at once. -/
abbrev Protocol.prod (P Q : Protocol S) : Protocol S where
  Position := P.Position × Q.Position
  rest := (P.rest, Q.rest)
  next p o a := (P.next p.1 o a).bind fun p' => (Q.next p.2 o a).map fun q' => (p', q')

/-- Whether an operation is permitted does not depend on how it is answered. -/
def Protocol.Indifferent (Q : Protocol S) : Prop :=
  ∀ q o a a', (Q.next q o a).isSome → (Q.next q o a').isSome

variable {P Q : Protocol S} {p p' : P.Position} {q q' : Q.Position} {o : S.Op} {a : S.Ans o}
  {program : Program S α} {exit : α → P.Position → Prop} {exit' : α → Q.Position → Prop}

theorem prod_next_eq_some : (P.prod Q).next (p, q) o a = some (p', q') ↔
    P.next p o a = some p' ∧ Q.next q o a = some q' := by
  rw [Option.bind_eq_some_iff]
  constructor
  · rintro ⟨first, hFirst, hBoth⟩
    obtain ⟨second, hSecond, hSame⟩ := Option.map_eq_some_iff.mp hBoth
    obtain ⟨rfl, rfl⟩ := Prod.mk.inj hSame
    exact ⟨hFirst, hSecond⟩
  · rintro ⟨hFirst, hSecond⟩
    exact ⟨p', hFirst, Option.map_eq_some_iff.mpr ⟨q', hSecond, rfl⟩⟩

theorem permits_prod_iff (hQ : Q.Indifferent) :
    (P.prod Q).Permits (p, q) o ↔ P.Permits p o ∧ Q.Permits q o := by
  constructor
  · rintro ⟨a, hSome⟩
    obtain ⟨⟨p', q'⟩, hNext⟩ := Option.isSome_iff_exists.mp hSome
    obtain ⟨hFirst, hSecond⟩ := prod_next_eq_some.mp hNext
    exact ⟨⟨a, hFirst ▸ rfl⟩, ⟨a, hSecond ▸ rfl⟩⟩
  · rintro ⟨⟨a, hFirst⟩, ⟨a', hSecond⟩⟩
    obtain ⟨p', hP⟩ := Option.isSome_iff_exists.mp hFirst
    obtain ⟨q', hQ'⟩ := Option.isSome_iff_exists.mp (hQ q o a' a hSecond)
    exact ⟨a, Option.isSome_iff_exists.mpr ⟨(p', q'), prod_next_eq_some.mpr ⟨hP, hQ'⟩⟩⟩

/-- A program that follows both protocols follows them at once. -/
theorem Protocol.Follows.prod (hQ : Q.Indifferent) (hFirst : P.Follows exit program p)
    (hSecond : Q.Follows exit' program q) :
    (P.prod Q).Follows (fun a r => exit a r.1 ∧ exit' a r.2) program (p, q) := by
  induction program generalizing p q with
  | done a => exact ⟨hFirst, hSecond⟩
  | perform o next ih =>
      refine ⟨(permits_prod_iff hQ).mpr ⟨hFirst.1, hSecond.1⟩, ?_⟩
      rintro a ⟨p', q'⟩ hNext
      obtain ⟨hP, hQ'⟩ := prod_next_eq_some.mp hNext
      exact ih a (hFirst.2 a p' hP) (hSecond.2 a q' hQ')

end Product

/-- Which notes an operation publishes, and which ones it obliges to, once answered. -/
structure Outbox (S : Signature) (Note : Type) where
  publishes : S.Op → Option Note
  owes : (o : S.Op) → S.Ans o → List Note

namespace Outbox

variable [DecidableEq Note] (B : Outbox S Note)

/-- The notes that are left, after an operation. -/
def after (left : List Note) (o : S.Op) (a : S.Ans o) : Option (List Note) :=
  match B.publishes o, left with
  | none, [] => some (B.owes o a)
  | some note, first :: rest => if note = first then some rest else none
  | _, _ => none

/-- A position holds the notes that are left to publish. -/
abbrev protocol : Protocol S where
  Position := List Note
  rest := []
  next left o a := B.after left o a

/-- An operation that has nothing to do with notes. -/
def Silent (o : S.Op) : Prop := B.publishes o = none ∧ ∀ a, B.owes o a = []

variable {B} {left left' : List Note} {o : S.Op} {a : S.Ans o} {program : Program S α}

theorem after_eq_some : B.after left o a = some left' ↔
    (B.publishes o = none ∧ left = [] ∧ left' = B.owes o a) ∨
      ∃ note, B.publishes o = some note ∧ left = note :: left' := by
  unfold after
  cases hPublishes : B.publishes o with
  | none =>
      cases left with
      | nil => simp [eq_comm]
      | cons first rest => simp
  | some note =>
      cases left with
      | nil => simp
      | cons first rest => simp [eq_comm]

theorem indifferent : B.protocol.Indifferent := by
  intro left o a a' hSome
  obtain ⟨left', hAfter⟩ := Option.isSome_iff_exists.mp hSome
  rcases after_eq_some.mp hAfter with ⟨hNone, rfl, -⟩ | ⟨note, hNote, rfl⟩
  · exact Option.isSome_iff_exists.mpr ⟨_, after_eq_some.mpr (Or.inl ⟨hNone, rfl, rfl⟩)⟩
  · exact Option.isSome_iff_exists.mpr ⟨_, after_eq_some.mpr (Or.inr ⟨note, hNote, rfl⟩)⟩

/-- A program without notes may run whenever none are left. -/
theorem follows_silent [∀ o, Nonempty (S.Ans o)] (h : program.All B.Silent) :
    B.protocol.Follows (fun _ q => q = []) program [] := by
  apply Protocol.Follows.of_all B.Silent h
  rintro o ⟨hPublishes, hOwes⟩
  have hNext : ∀ a, B.after [] o a = some [] := fun a =>
    after_eq_some.mpr (Or.inl ⟨hPublishes, rfl, (hOwes a).symm⟩)
  obtain ⟨a⟩ := ‹∀ o, Nonempty (S.Ans o)› o
  refine ⟨⟨a, Option.isSome_iff_exists.mpr ⟨[], hNext a⟩⟩, fun a p' hStep => ?_⟩
  exact (Option.some.inj ((hNext a).symm.trans hStep)).symm

/-- The next note is published. -/
theorem follows_publish {exit : α → List Note → Prop} {note : Note} {next : S.Ans o → Program S α}
    [Nonempty (S.Ans o)] (hPublishes : B.publishes o = some note)
    (h : ∀ a, B.protocol.Follows exit (next a) left) :
    B.protocol.Follows exit (.perform o next) (note :: left) :=
  Protocol.Follows.step (fun _ => after_eq_some.mpr (Or.inr ⟨note, hPublishes, rfl⟩)) h

end Outbox

section Ledger

variable [DecidableEq Thread] {left : Thread → List Note} {published owed : List Note} {t : Thread}
  {rest : List Note}

/-- At most one thread has notes left, and with them everything owed is published. -/
def Posted (published owed : List Note) (left : Thread → List Note) : Prop :=
  (∀ u, left u = []) ∧ published = owed ∨
    ∃ t, (∀ u, u ≠ t → left u = []) ∧ published ++ left t = owed

omit [DecidableEq Thread] in
theorem Posted.quiet (h : Posted published owed left) (hQuiet : ∀ t, left t = []) :
    published = owed := by
  rcases h with ⟨-, hSame⟩ | ⟨t, -, hAll⟩
  · exact hSame
  · rwa [hQuiet t, List.append_nil] at hAll

/-- Whoever comes to owe something is the only one. -/
theorem Posted.owes (h : Posted published owed left) (hQuiet : ∀ u, left u = []) :
    Posted published (owed ++ rest) (Function.update left t rest) := by
  refine Or.inr ⟨t, fun u hne => ?_, ?_⟩
  · rw [Function.update_of_ne hne]
    exact hQuiet u
  · rw [Function.update_self, h.quiet hQuiet]

theorem Posted.publishes {note : Note} (h : Posted published owed left) (hLeft : left t = note :: rest) :
    Posted (published ++ [note]) owed (Function.update left t rest) := by
  rcases h with ⟨hNone, -⟩ | ⟨u, hOthers, hAll⟩
  · rw [hNone t] at hLeft
    cases hLeft
  · obtain rfl : t = u := by
      by_contra hne
      rw [hOthers t hne] at hLeft
      cases hLeft
    refine Or.inr ⟨t, fun v hne => ?_, ?_⟩
    · rw [Function.update_of_ne hne]
      exact hOthers v hne
    · rw [Function.update_self, List.append_assoc, List.singleton_append, ← hLeft, hAll]

end Ledger

end Interleaving
