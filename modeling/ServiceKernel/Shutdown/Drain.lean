import ServiceKernel.Primitives.Time

/-! Draining a join set up to a grace deadline and aborting the rest. A set is given by
what joining its tasks yields, in the order in which they are joined. -/
namespace ServiceKernel

/-- What `join_next` yields for a task: its value, or one of the two join errors. -/
inductive JoinEnd (T : Type) where
  | ok (value : T)
  | panicked
  | cancelled
  deriving DecidableEq, Repr

structure DrainOutcome where
  drained : Nat
  aborted : Nat
  elapsed : Nat
  deriving DecidableEq, Repr

/-- Total tasks accounted for. -/
def DrainOutcome.total (outcome : DrainOutcome) : Nat := outcome.drained + outcome.aborted

/-- Where phase 1 of `drain` leaves the loop: nothing was left to join, or the deadline
fired before the tasks in `set` were joined. -/
inductive DrainBreak (T : Type) where
  | emptied (drained aborted : Nat)
  | expired (set : List (JoinEnd T)) (drained aborted : Nat)

variable {T : Type}

/-- Phase 1: drain until the deadline, which comes after `expiry` joins, or the set
empties. The select is biased towards the deadline. -/
def drainUntil : Nat → List (JoinEnd T) → Nat → Nat → DrainBreak T
  | 0, set, drained, aborted => .expired set drained aborted
  | _ + 1, [], drained, aborted => .emptied drained aborted
  | expiry + 1, .ok _ :: set, drained, aborted => drainUntil expiry set (drained + 1) aborted
  | expiry + 1, .cancelled :: set, drained, aborted => drainUntil expiry set drained (aborted + 1)
  | expiry + 1, .panicked :: set, drained, aborted => drainUntil expiry set (drained + 1) aborted

/-- Phase 2: the deadline expired and the set still holds tasks. The result is the set
that is left, with the two counts. -/
def drainAborting : List (JoinEnd T) → Nat → Nat → List (JoinEnd T) × Nat × Nat
  | [], drained, aborted => ([], drained, aborted)
  | .ok _ :: set, drained, aborted => drainAborting set (drained + 1) aborted
  | .cancelled :: set, drained, aborted => drainAborting set drained (aborted + 1)
  | .panicked :: set, drained, aborted => drainAborting set drained (aborted + 1)

/-- `shutdown::drain` of a set whose deadline comes after `expiry` joins, with the set it
leaves; `none` when computing the deadline overflows. -/
def drain (set : List (JoinEnd T)) (grace : Duration) (started ended : Instant) (expiry : Nat) :
    Option (List (JoinEnd T) × DrainOutcome) :=
  let elapsed := ended.durationSince started
  if set.isEmpty then some (set, ⟨0, 0, elapsed⟩)
  else
    (started.checkedAdd grace).map fun _ => match drainUntil expiry set 0 0 with
      | .emptied drained aborted => ([], ⟨drained, aborted, elapsed⟩)
      | .expired left drained aborted =>
        if left.isEmpty then (left, ⟨drained, aborted, elapsed⟩)
        else
          let (left, drained, aborted) := drainAborting left drained aborted
          (left, ⟨drained, aborted, elapsed⟩)

namespace JoinEnd

def isOk : JoinEnd T → Bool
  | ok _ => true
  | _ => false

def isPanicked : JoinEnd T → Bool
  | panicked => true
  | _ => false

def isCancelled : JoinEnd T → Bool
  | cancelled => true
  | _ => false

/-- What kind of end it is. -/
def kind : JoinEnd T → JoinEnd Unit
  | ok _ => ok ()
  | panicked => panicked
  | cancelled => cancelled

variable {V : Type} {set : List (JoinEnd T)} {others : List (JoinEnd V)}

/-- Tasks of the same kinds are counted the same. -/
theorem countP_kinds (h : set.map kind = others.map kind) :
    set.countP isOk = others.countP isOk ∧ set.countP isPanicked = others.countP isPanicked ∧
      set.countP isCancelled = others.countP isCancelled := by
  have hKind {W : Type} (ends : List (JoinEnd W)) :
      (ends.map kind).countP isOk = ends.countP isOk ∧
      (ends.map kind).countP isPanicked = ends.countP isPanicked ∧
      (ends.map kind).countP isCancelled = ends.countP isCancelled := by
    simp only [List.countP_map]
    refine ⟨List.countP_congr ?_, List.countP_congr ?_, List.countP_congr ?_⟩ <;>
      (intro e _; cases e <;> rfl)
  obtain ⟨hOk, hPanicked, hCancelled⟩ := hKind set
  rw [← hOk, ← hPanicked, ← hCancelled, h]
  exact hKind others

end JoinEnd

section Counts

open JoinEnd

variable {set : List (JoinEnd T)} {grace : Duration} {started ended : Instant}
  {expiry drained aborted : Nat}

/-- Every task ends in one of the three ways. -/
theorem countP_ends (set : List (JoinEnd T)) :
    set.countP isOk + set.countP isPanicked + set.countP isCancelled = set.length := by
  induction set with
  | nil => rfl
  | cons e set ih =>
      simp only [List.countP_cons, List.length_cons]
      cases e <;> simp only [isOk, isPanicked, isCancelled] <;> simp <;> omega

/-- Phase 2 joins everything, and counts as aborted what did not return a value. -/
theorem drainAborting_eq (set : List (JoinEnd T)) (drained aborted : Nat) :
    drainAborting set drained aborted = ([], drained + set.countP isOk,
      aborted + set.countP isCancelled + set.countP isPanicked) := by
  induction set generalizing drained aborted with
  | nil => rfl
  | cons e set ih =>
      cases e with
      | ok value =>
          simp only [drainAborting, ih, List.countP_cons, isOk, isPanicked, isCancelled]
          simp [Nat.add_assoc, Nat.add_comm 1]
      | panicked =>
          simp only [drainAborting, ih, List.countP_cons, isOk, isPanicked, isCancelled]
          simp
          omega
      | cancelled =>
          simp only [drainAborting, ih, List.countP_cons, isOk, isPanicked, isCancelled]
          simp
          omega

/-- Phase 1 joins what comes before the deadline, and counts only cancellations as
aborted. -/
theorem drainUntil_eq (expiry : Nat) (set : List (JoinEnd T)) (drained aborted : Nat) :
    drainUntil expiry set drained aborted =
      let joined := set.take expiry
      let drained := drained + joined.countP isOk + joined.countP isPanicked
      let aborted := aborted + joined.countP isCancelled
      if set.length < expiry then .emptied drained aborted
      else .expired (set.drop expiry) drained aborted := by
  induction expiry generalizing set drained aborted with
  | zero => simp [drainUntil]
  | succ expiry ih =>
      cases set with
      | nil => simp [drainUntil]
      | cons e set =>
          have hMore : (e :: set).length < expiry + 1 ↔ set.length < expiry := by simp
          simp only [List.take_succ_cons, List.drop_succ_cons, hMore, List.countP_cons]
          cases e with
          | ok value =>
              simp only [drainUntil, ih, isOk, isPanicked, isCancelled]
              simp [Nat.add_assoc, Nat.add_comm 1]
          | panicked =>
              simp only [drainUntil, ih, isOk, isPanicked, isCancelled]
              simp [Nat.add_assoc, Nat.add_comm 1]
          | cancelled =>
              simp only [drainUntil, ih, isOk, isPanicked, isCancelled]
              simp [Nat.add_assoc, Nat.add_comm 1]

/-- What `drain` returns: it leaves no task, and counts a panic as drained before the
deadline and as aborted after it. -/
theorem drain_eq {deadline : Instant} (hDeadline : started.checkedAdd grace = some deadline)
    (set : List (JoinEnd T)) (ended : Instant) (expiry : Nat) :
    drain set grace started ended expiry = some ([],
      ⟨set.countP isOk + (set.take expiry).countP isPanicked,
        set.countP isCancelled + (set.drop expiry).countP isPanicked,
        ended.durationSince started⟩) := by
  have hSplit (p : JoinEnd T → Bool) :
      set.countP p = (set.take expiry).countP p + (set.drop expiry).countP p := by
    rw [← List.countP_append, List.take_append_drop]
  rw [hSplit isOk, hSplit isCancelled]
  by_cases hEmpty : set = []
  · simp [drain, hEmpty]
  · have hSome : set.isEmpty = false := by simpa using hEmpty
    simp only [drain, hSome, hDeadline, drainUntil_eq, drainAborting_eq]
    by_cases hEmptied : set.length < expiry
    · have hNone : set.drop expiry = [] := List.drop_eq_nil_of_le (Nat.le_of_lt hEmptied)
      simp [hEmptied, hNone]
    · cases hLeft : set.drop expiry with
      | nil => simp [hEmptied]
      | cons first others =>
          simp [hEmptied]
          omega

/-- An empty set needs no deadline; any other is drained only if there is one. -/
theorem drain_isSome_iff : (drain set grace started ended expiry).isSome ↔
    set = [] ∨ (started.checkedAdd grace).isSome := by
  cases set with
  | nil => simp [drain]
  | cons e rest => simp [drain]

end Counts

end ServiceKernel
