import ServiceKernel.Semantics.Typestate

/-! Protocols with a token, such as a lock. Some operations take the token, some give
it back, some are its holder's alone, and some need a position at which the
protocol is at rest. A thread whose position is not at rest holds the token. -/
namespace Interleaving

variable {S : Signature} {α Thread : Type}

/-- Which operations of a protocol handle a token, and where the protocol is at rest. -/
structure Custody (P : Protocol S) where
  takes : S.Op → Bool
  gives : S.Op → Bool
  needs : S.Op → Bool
  settled : S.Op → Bool
  atRest : P.Position → Bool

namespace Custody

variable {P : Protocol S} (C : Custody P)

/-- Whether the operation may be performed at a position, with or without the token. -/
def allows (p : P.Position) (held : Bool) (o : S.Op) : Bool :=
  (!C.takes o || !held) && (!C.needs o || held) && (!C.settled o || C.atRest p)

/-- Whether the thread holds the token after the operation. -/
def after (held : Bool) (o : S.Op) : Bool := !C.gives o && (C.takes o || held)

/-- The protocol with the token: a position, and whether the thread holds the token. -/
abbrev protocol : Protocol S where
  Position := P.Position × Bool
  rest := (P.rest, false)
  next p o a := if C.allows p.1 p.2 o then (P.next p.1 o a).map fun q => (q, C.after p.2 o) else none

/-- An operation that a thread may perform at any position without the token changing hands. -/
def Idle (held : Bool) (o : S.Op) : Prop :=
  C.takes o = false ∧ C.gives o = false ∧ (C.needs o = true → held = true) ∧ C.settled o = false

/-- A thread that is not at rest holds the token. -/
def Covered (p : P.Position × Bool) : Prop := C.atRest p.1 = false → p.2 = true

variable {C} {p p' : P.Position} {held held' : Bool} {o : S.Op} {a : S.Ans o}
  {program : Program S α} {exit : α → P.Position → Prop}

theorem next_eq_some : C.protocol.next (p, held) o a = some (p', held') ↔
    C.allows p held o = true ∧ P.next p o a = some p' ∧ held' = C.after held o := by
  rw [Option.ite_none_right_eq_some, Option.map_eq_some_iff]
  apply and_congr_right
  intro _
  constructor
  · rintro ⟨q, hNext, hSame⟩
    obtain ⟨rfl, rfl⟩ := Prod.mk.inj hSame
    exact ⟨hNext, rfl⟩
  · rintro ⟨hNext, rfl⟩
    exact ⟨p', hNext, rfl⟩

theorem permits_iff : C.protocol.Permits (p, held) o ↔ C.allows p held o = true ∧ P.Permits p o := by
  constructor
  · rintro ⟨a, hSome⟩
    obtain ⟨⟨q, held'⟩, hNext⟩ := Option.isSome_iff_exists.mp hSome
    obtain ⟨hAllows, hStep, -⟩ := next_eq_some.mp hNext
    exact ⟨hAllows, a, hStep ▸ rfl⟩
  · rintro ⟨hAllows, a, hSome⟩
    obtain ⟨q, hStep⟩ := Option.isSome_iff_exists.mp hSome
    refine ⟨a, Option.isSome_iff_exists.mpr ⟨(q, C.after held o), ?_⟩⟩
    exact next_eq_some.mpr ⟨hAllows, hStep, rfl⟩

theorem Idle.allows (h : C.Idle held o) : C.allows p held o = true := by
  obtain ⟨hTakes, -, hNeeds, hSettled⟩ := h
  cases hNeed : C.needs o
  · simp [Custody.allows, hTakes, hNeed, hSettled]
  · simp [Custody.allows, hTakes, hNeeds hNeed, hSettled]

theorem Idle.after (h : C.Idle held o) : C.after held o = held := by
  simp [Custody.after, h.1, h.2.1]

/-- A program that leaves the token alone keeps to the protocol as it did without one. -/
theorem follows_idle (hAll : program.All (C.Idle held)) (h : P.Follows exit program p) :
    C.protocol.Follows (fun a q => exit a q.1 ∧ q.2 = held) program (p, held) := by
  induction program generalizing p with
  | done a => exact ⟨h, rfl⟩
  | perform o next ih =>
      obtain ⟨hIdle, hLater⟩ := hAll
      refine ⟨permits_iff.mpr ⟨hIdle.allows, h.1⟩, ?_⟩
      rintro a ⟨q, held'⟩ hNext
      obtain ⟨-, hStep, rfl⟩ := next_eq_some.mp hNext
      rw [hIdle.after]
      exact ih a (hLater a) (h.2 a q hStep)

/-- One operation that is allowed here, whose every answer leads to the same position. -/
theorem follows_allowed {exit : α → P.Position × Bool → Prop} {next : S.Ans o → Program S α}
    [Nonempty (S.Ans o)] (hAllows : C.allows p held o = true) (hNext : ∀ a, P.next p o a = some p')
    (h : ∀ a, C.protocol.Follows exit (next a) (p', C.after held o)) :
    C.protocol.Follows exit (.perform o next) (p, held) :=
  Protocol.Follows.step (fun a => next_eq_some.mpr ⟨hAllows, hNext a, rfl⟩) h

/-- Only the holder's operations lead away from rest. -/
theorem Covered.next (hLeaves : ∀ p o a p', P.next p o a = some p' → C.atRest p = true →
      C.atRest p' = false → C.needs o = true ∧ C.gives o = false)
    (hGives : ∀ o, C.gives o = true → C.settled o = true)
    (hStays : ∀ p o a p', P.next p o a = some p' → C.gives o = true → p' = p)
    (hCovered : C.Covered (p, held)) (h : C.protocol.next (p, held) o a = some (p', held')) :
    C.Covered (p', held') := by
  obtain ⟨hAllows, hNext, rfl⟩ := next_eq_some.mp h
  intro hAway
  simp only [Custody.allows, Bool.and_eq_true, Bool.or_eq_true, Bool.not_eq_true'] at hAllows
  obtain ⟨⟨-, hNeeds⟩, hSettled⟩ := hAllows
  cases hGive : C.gives o with
  | true =>
      -- the token is given back at rest only, and giving it back does not move the thread
      obtain rfl := hStays p o a p' hNext hGive
      rcases hSettled with hNot | hRest
      · rw [hGives o hGive] at hNot
        cases hNot
      · rw [hRest] at hAway
        cases hAway
  | false =>
      have hHeld : held = true := by
        cases hRest : C.atRest p with
        | false => exact hCovered hRest
        | true =>
            obtain ⟨hNeed, -⟩ := hLeaves p o a p' hNext hRest hAway
            rcases hNeeds with hNot | hHeld
            · rw [hNeed] at hNot
              cases hNot
            · exact hHeld
      simp [Custody.after, hGive, hHeld]

end Custody

section Owner

variable [DecidableEq Thread] {owner : Option Thread} {held : Thread → Bool} {t : Thread}

/-- The owner of the token is the one thread that holds it. -/
def Owns (owner : Option Thread) (held : Thread → Bool) : Prop := ∀ t, owner = some t ↔ held t = true

omit [DecidableEq Thread] in
theorem owns_none : Owns (none : Option Thread) fun _ => false := by
  intro t
  simp

theorem Owns.taken (h : Owns none held) : Owns (some t) (Function.update held t true) := by
  intro u
  have hFree : held u = false := by
    have hIff := h u
    simpa using hIff
  rcases eq_or_ne u t with rfl | hne
  · simp
  · simp [hne, hne.symm, hFree]

theorem Owns.given (h : Owns owner held) (hHeld : held t = true) :
    Owns none (Function.update held t false) := by
  intro u
  have hOwner := (h t).mpr hHeld
  rcases eq_or_ne u t with rfl | hne
  · simp
  · have hOther : held u = false := by
      have hIff := h u
      simpa [hOwner, hne.symm] using hIff
    simp [hne, hOther]

theorem Owns.same {held' : Bool} (h : Owns owner held) (hSame : held' = held t) :
    Owns owner (Function.update held t held') := by
  rw [hSame, Function.update_eq_self]
  exact h

end Owner

end Interleaving
