import Mathlib.Data.List.Induction
import Mathlib.Logic.Function.Basic
import ServiceKernel.Primitives.Time
import ServiceKernel.Semantics.Chronicle

/-! The shutdown signal behind the kernel's handles: a flag, a mutex and a condition
variable. The flag is stored under the mutex and announced after it is released, and
waiters check the flag in a loop under the mutex. -/
namespace ServiceKernel

open Interleaving Execution

inductive SignalCall where
  | signal
  | waitForSignal
  | waitForSignalUntil (deadline : Instant)
  deriving DecidableEq

/-- Where a thread is in a call. The places of a wait carry its deadline, if it has one. -/
inductive SignalPlace where
  | idle
  /-- In `signal`: before the lock, before the store, before the release and before
  `notify_all`. -/
  | locking
  | storing
  | releasing
  | announcing
  /-- In a wait: before the first lock. -/
  | entering (deadline : Option Instant)
  /-- Holding the mutex, about to read the flag in the condition of the loop. -/
  | checking (deadline : Option Instant)
  /-- Holding the mutex, about to read the clock. -/
  | timing (deadline : Instant)
  /-- Holding the mutex, about to wait on the condition variable. -/
  | parking (deadline : Option Instant)
  | parked (deadline : Option Instant)
  /-- No longer parked, about to take the mutex again. -/
  | woken (deadline : Option Instant) (timedOut : Bool)
  /-- Holding the mutex after a timeout, about to read the flag once more. -/
  | rechecking (deadline : Instant)
  /-- Holding the mutex, about to release it and return. -/
  | leaving (deadline : Option Instant) (answer : Bool)
  deriving DecidableEq

inductive SignalEvent where
  | stored
  | notified
  | read (flag : Bool)
  | clock (now : Instant)
  | resumed (timedOut : Bool)
  | returned (deadline : Option Instant) (answer : Bool)
  deriving DecidableEq

/-- The flag, and the thread that holds the mutex. -/
structure ShutdownInner (Thread : Type) where
  signalled : Bool
  parker : Option Thread

def SignalCall.entry : SignalCall → SignalPlace
  | signal => .locking
  | waitForSignal => .entering none
  | waitForSignalUntil deadline => .entering (some deadline)

namespace SignalPlace

def holds : SignalPlace → Bool
  | storing => true
  | releasing => true
  | checking _ => true
  | timing _ => true
  | parking _ => true
  | rechecking _ => true
  | leaving _ _ => true
  | _ => false

def isParked : SignalPlace → Bool
  | parked _ => true
  | _ => false

/-- Between the store and `notify_all`. -/
def announces : SignalPlace → Bool
  | releasing => true
  | announcing => true
  | _ => false

/-- Past a reading of the flag as unset, still holding the mutex. -/
def resolved : SignalPlace → Bool
  | timing _ => true
  | parking _ => true
  | _ => false

theorem holds_of_resolved {place : SignalPlace} (h : place.resolved = true) : place.holds = true := by
  cases place <;> first | rfl | cases h

/-- `notify_all` for one thread. -/
def notified : SignalPlace → SignalPlace
  | parked deadline => woken deadline false
  | place => place

end SignalPlace

variable {Thread : Type}

/-- The next step of thread `t` at a place; `now` is what it reads if it reads the clock. -/
def ShutdownInner.advance (inner : ShutdownInner Thread) (t : Thread) (now : Instant) :
    SignalPlace → Option (ShutdownInner Thread × SignalPlace × Option SignalEvent)
  | .idle => none
  | .locking => if inner.parker.isNone then
      some ({ inner with parker := some t }, .storing, none) else none
  | .storing => some ({ inner with signalled := true }, .releasing, some .stored)
  | .releasing => some ({ inner with parker := none }, .announcing, none)
  | .announcing => some (inner, .idle, some .notified)
  | .entering deadline => if inner.parker.isNone then
      some ({ inner with parker := some t }, .checking deadline, none) else none
  | .checking deadline =>
      some (inner, if inner.signalled then .leaving deadline true else match deadline with
        | some deadline => .timing deadline
        | none => .parking none, some (.read inner.signalled))
  | .timing deadline =>
      some (inner, if deadline ≤ now then .leaving (some deadline) false
        else .parking (some deadline), some (.clock now))
  | .parking deadline => some ({ inner with parker := none }, .parked deadline, none)
  | .parked _ => none
  | .woken deadline timedOut => if inner.parker.isNone then
      some ({ inner with parker := some t }, match deadline, timedOut with
        | some deadline, true => .rechecking deadline
        | _, _ => .checking deadline, some (.resumed timedOut)) else none
  | .rechecking deadline =>
      some (inner, if inner.signalled then .checking (some deadline)
        else .leaving (some deadline) false, some (.read inner.signalled))
  | .leaving deadline answer =>
      some ({ inner with parker := none }, .idle, some (.returned deadline answer))

structure SignalConfig (Thread : Type) where
  inner : ShutdownInner Thread
  clock : Instant
  threads : Thread → SignalPlace
  trace : List (Thread × SignalEvent)

/-- `wake` is a spurious wake-up, or the end of a timeout. -/
inductive SignalLabel (Thread : Type) where
  | call (t : Thread) (k : SignalCall)
  | go (t : Thread) (now : Instant)
  | wake (t : Thread) (timedOut : Bool)

namespace SignalConfig

def new (Thread : Type) (clock : Instant) : SignalConfig Thread :=
  ⟨⟨false, none⟩, clock, fun _ => .idle, []⟩

variable [DecidableEq Thread]

/-- Announcing unparks every parked thread. -/
def exec (s : SignalConfig Thread) : SignalLabel Thread → Option (SignalConfig Thread)
  | .call t k => if s.threads t = .idle then
      some { s with threads := Function.update s.threads t k.entry } else none
  | .go t now => if s.clock ≤ now then
      (s.inner.advance t now (s.threads t)).map fun (inner, place, event) =>
        { inner
          clock := now
          threads := Function.update (if s.threads t = .announcing then
            fun u => (s.threads u).notified else s.threads) t place
          trace := s.trace ++ (event.map fun e => (t, e)).toList }
      else none
  | .wake t timedOut => match s.threads t with
    | .parked deadline => if timedOut = true → deadline.isSome then
        some { s with threads := Function.update s.threads t (.woken deadline timedOut) } else none
    | _ => none

end SignalConfig

abbrev SignalStep [DecidableEq Thread] (s : SignalConfig Thread) (label : SignalLabel Thread)
    (s' : SignalConfig Thread) : Prop := s.exec label = some s'

section Advance

variable {inner inner' : ShutdownInner Thread} {t u : Thread} {now : Instant}
  {place place' : SignalPlace} {event : Option SignalEvent}

/-- The steps of a thread, branch by branch. -/
inductive SignalMove (inner : ShutdownInner Thread) (t : Thread) (now : Instant) :
    SignalPlace → ShutdownInner Thread → SignalPlace → Option SignalEvent → Prop
  | locked (hFree : inner.parker = none) :
      SignalMove inner t now .locking { inner with parker := some t } .storing none
  | stored : SignalMove inner t now .storing { inner with signalled := true } .releasing
      (some .stored)
  | released : SignalMove inner t now .releasing { inner with parker := none } .announcing none
  | notified : SignalMove inner t now .announcing inner .idle (some .notified)
  | entered {deadline : Option Instant} (hFree : inner.parker = none) :
      SignalMove inner t now (.entering deadline) { inner with parker := some t }
        (.checking deadline) none
  | foundSet {deadline : Option Instant} (hSet : inner.signalled = true) :
      SignalMove inner t now (.checking deadline) inner (.leaving deadline true)
        (some (.read true))
  | foundUnset (hUnset : inner.signalled = false) :
      SignalMove inner t now (.checking none) inner (.parking none) (some (.read false))
  | foundUnsetUntil {deadline : Instant} (hUnset : inner.signalled = false) :
      SignalMove inner t now (.checking (some deadline)) inner (.timing deadline)
        (some (.read false))
  | expired {deadline : Instant} (hPast : deadline ≤ now) :
      SignalMove inner t now (.timing deadline) inner (.leaving (some deadline) false)
        (some (.clock now))
  | hasTime {deadline : Instant} :
      SignalMove inner t now (.timing deadline) inner (.parking (some deadline))
        (some (.clock now))
  | parked {deadline : Option Instant} :
      SignalMove inner t now (.parking deadline) { inner with parker := none } (.parked deadline)
        none
  | resumed {deadline : Option Instant} {timedOut : Bool} (hFree : inner.parker = none) :
      SignalMove inner t now (.woken deadline timedOut) { inner with parker := some t }
        (.checking deadline) (some (.resumed timedOut))
  | timedOut {deadline : Instant} (hFree : inner.parker = none) :
      SignalMove inner t now (.woken (some deadline) true) { inner with parker := some t }
        (.rechecking deadline) (some (.resumed true))
  | setAfterAll {deadline : Instant} (hSet : inner.signalled = true) :
      SignalMove inner t now (.rechecking deadline) inner (.checking (some deadline))
        (some (.read true))
  | gaveUp {deadline : Instant} (hUnset : inner.signalled = false) :
      SignalMove inner t now (.rechecking deadline) inner (.leaving (some deadline) false)
        (some (.read false))
  | left {deadline : Option Instant} {answer : Bool} :
      SignalMove inner t now (.leaving deadline answer) { inner with parker := none } .idle
        (some (.returned deadline answer))

theorem signalMove_of_advance (h : inner.advance t now place = some (inner', place', event)) :
    SignalMove inner t now place inner' place' event := by
  cases place with
  | idle => cases h
  | parked deadline => cases h
  | storing | releasing | announcing | parking _ | leaving _ _ =>
      cases h
      constructor
  | locking | entering deadline =>
      simp only [ShutdownInner.advance, Option.isNone_iff_eq_none, Option.ite_none_right_eq_some] at h
      obtain ⟨hFree, h⟩ := h
      cases h
      constructor
      exact hFree
  | checking deadline =>
      cases hFlag : inner.signalled with
      | true =>
          simp only [ShutdownInner.advance, hFlag, if_true] at h
          cases h
          exact .foundSet hFlag
      | false =>
          simp only [ShutdownInner.advance, hFlag, Bool.false_eq_true, if_false] at h
          cases deadline <;> cases h
          · exact .foundUnset hFlag
          · exact .foundUnsetUntil hFlag
  | timing deadline =>
      by_cases hPast : deadline ≤ now
      · simp only [ShutdownInner.advance, if_pos hPast] at h
        cases h
        exact .expired hPast
      · simp only [ShutdownInner.advance, if_neg hPast] at h
        cases h
        exact .hasTime
  | woken deadline timedOut =>
      simp only [ShutdownInner.advance, Option.isNone_iff_eq_none, Option.ite_none_right_eq_some] at h
      obtain ⟨hFree, h⟩ := h
      cases deadline <;> cases timedOut <;> cases h
      · exact .resumed hFree
      · exact .resumed hFree
      · exact .resumed hFree
      · exact .timedOut hFree
  | rechecking deadline =>
      cases hFlag : inner.signalled with
      | true =>
          simp only [ShutdownInner.advance, hFlag, if_true] at h
          cases h
          exact .setAfterAll hFlag
      | false =>
          simp only [ShutdownInner.advance, hFlag, Bool.false_eq_true, if_false] at h
          cases h
          exact .gaveUp hFlag

/-- The mutex is passed on only by the thread that takes or releases it. -/
theorem advance_holds (h : inner.advance t now place = some (inner', place', event))
    (hHolds : place.holds = true ↔ inner.parker = some t) :
    (place'.holds = true ↔ inner'.parker = some t) ∧
      ∀ u, u ≠ t → (inner'.parker = some u ↔ inner.parker = some u) := by
  cases signalMove_of_advance h with
  | locked hFree | entered hFree | resumed hFree | timedOut hFree =>
      refine ⟨by simp [SignalPlace.holds], fun u hOther => ?_⟩
      simp [hFree, Ne.symm hOther]
  | released | parked | left =>
      have hMine : inner.parker = some t := hHolds.mp rfl
      refine ⟨by simp [SignalPlace.holds], fun u hOther => ?_⟩
      simp [hMine, Ne.symm hOther]
  | _ => exact ⟨hHolds, fun _ _ => Iff.rfl⟩

/-- Only a signaller that holds the mutex changes the flag, and it sets it. -/
theorem advance_signalled (h : inner.advance t now place = some (inner', place', event)) :
    (inner'.signalled = inner.signalled ∧ event ≠ some .stored) ∨
      place = .storing ∧ place' = .releasing ∧ inner'.signalled = true ∧ event = some .stored := by
  cases signalMove_of_advance h with
  | stored => exact Or.inr ⟨rfl, rfl, rfl, rfl⟩
  | _ => exact Or.inl ⟨rfl, by simp⟩

theorem advance_parks (h : inner.advance t now place = some (inner', place', event))
    (hParked : place'.isParked = true) : place.resolved = true := by
  cases signalMove_of_advance h with
  | parked => rfl
  | _ => cases hParked

theorem advance_resolves (h : inner.advance t now place = some (inner', place', event))
    (hResolved : place'.resolved = true) (hUnset : place.resolved = true → inner.signalled = false) :
    inner'.signalled = false := by
  cases signalMove_of_advance h with
  | foundUnset hFlag | foundUnsetUntil hFlag => exact hFlag
  | hasTime => exact hUnset rfl
  | _ => cases hResolved

theorem advance_announces (h : inner.advance t now place = some (inner', place', event))
    (hAnnounces : place.announces = true) : place'.announces = true ∨ place = .announcing := by
  cases signalMove_of_advance h with
  | released => exact Or.inl rfl
  | notified => exact Or.inr rfl
  | _ => cases hAnnounces

theorem advance_reads {flag : Bool}
    (h : inner.advance t now place = some (inner', place', some (.read flag))) :
    flag = inner.signalled := by
  cases signalMove_of_advance h with
  | foundSet hSet | setAfterAll hSet => exact hSet.symm
  | foundUnset hUnset | foundUnsetUntil hUnset | gaveUp hUnset => exact hUnset.symm

theorem advance_returns {deadline : Option Instant} {answer : Bool}
    (h : inner.advance t now place = some (inner', place', some (.returned deadline answer))) :
    place = .leaving deadline answer := by
  cases signalMove_of_advance h with
  | left => rfl

end Advance

section Told

/-- Why a wait may return: it read the flag as set, or it found the deadline passed or
timed out and read the flag as unset. -/
def Answers (deadline : Option Instant) (events : List SignalEvent) : Bool → Prop
  | true => [.read true] <:+ events
  | false => ∃ d, deadline = some d ∧
      ((∃ now, d ≤ now ∧ [.read false, .clock now] <:+ events) ∨
        [.resumed true, .read false] <:+ events)

/-- What a thread's place says of the events it has been through. -/
def Told (flag : Bool) (events : List SignalEvent) : SignalPlace → Prop
  | .timing _ => [.read false] <:+ events
  | .rechecking _ => [.resumed true] <:+ events
  | .leaving deadline answer => Answers deadline events answer ∧ (answer = true → flag = true)
  | _ => True

variable {inner inner' : ShutdownInner Thread} {t : Thread} {now : Instant}
  {place place' : SignalPlace} {event : Option SignalEvent} {events : List SignalEvent}

theorem Told.mono {flag flag' : Bool} (h : Told flag events place)
    (hFlag : flag = true → flag' = true) : Told flag' events place := by
  cases place with
  | leaving deadline answer => exact ⟨h.1, fun hAnswer => hFlag (h.2 hAnswer)⟩
  | _ => exact h

theorem advance_told (h : inner.advance t now place = some (inner', place', event))
    (hTold : Told inner.signalled events place) :
    Told inner'.signalled (events ++ event.toList) place' := by
  cases signalMove_of_advance h with
  | foundSet hSet => exact ⟨⟨events, rfl⟩, fun _ => hSet⟩
  | foundUnsetUntil => exact ⟨events, rfl⟩
  | @expired deadline hPast =>
      obtain ⟨earlier, rfl⟩ := hTold
      refine ⟨⟨deadline, rfl, Or.inl ⟨now, hPast, earlier, ?_⟩⟩, fun h => by cases h⟩
      simp
  | timedOut => exact ⟨events, rfl⟩
  | @gaveUp deadline =>
      obtain ⟨earlier, rfl⟩ := hTold
      refine ⟨⟨deadline, rfl, Or.inr ⟨earlier, ?_⟩⟩, fun h => by cases h⟩
      simp
  | _ => trivial

end Told

section Runs

variable [DecidableEq Thread] {s s' : SignalConfig Thread} {label : SignalLabel Thread}

/-- The events of one thread. -/
def signalEventsOf (t : Thread) (trace : List (Thread × SignalEvent)) : List SignalEvent :=
  (trace.filter fun e => e.1 = t).map Prod.snd

@[simp] theorem signalEventsOf_append (t : Thread) (trace more : List (Thread × SignalEvent)) :
    signalEventsOf t (trace ++ more) = signalEventsOf t trace ++ signalEventsOf t more := by
  simp [signalEventsOf]

/-- What holds between any two steps. -/
structure SignalSteady (s : SignalConfig Thread) : Prop where
  holder : ∀ t, (s.threads t).holds = true ↔ s.inner.parker = some t
  unset : ∀ t, (s.threads t).resolved = true → s.inner.signalled = false
  heard : s.inner.signalled = true → (∃ t, (s.threads t).isParked = true) →
    ∃ u, (s.threads u).announces = true
  stored : s.inner.signalled = true ↔ ∃ u, (u, .stored) ∈ s.trace
  told : ∀ t, Told s.inner.signalled (signalEventsOf t s.trace) (s.threads t)

theorem signalSteady_new (clock : Instant) : SignalSteady (.new Thread clock) where
  holder t := by simp [SignalConfig.new, SignalPlace.holds]
  unset t h := by cases h
  heard h := by cases h
  stored := by simp [SignalConfig.new]
  told t := trivial

/-- A thread that moves outside the mutex, to a place that is not parked. -/
theorem SignalSteady.relocate (h : SignalSteady s) {t : Thread} {place : SignalPlace}
    (hFree : (s.threads t).holds = false) (hSilent : (s.threads t).announces = false)
    (hFree' : place.holds = false) (hOpen : place.resolved = false)
    (hAwake : place.isParked = false) (hTold : ∀ flag events, Told flag events place) :
    SignalSteady { s with threads := Function.update s.threads t place } := by
  refine ⟨fun u => ?_, fun u hResolved => ?_, fun hFlag ⟨u, hParked⟩ => ?_, h.stored, fun u => ?_⟩
  · have hHolder := h.holder u
    rcases eq_or_ne u t with rfl | hne
    · rw [hFree] at hHolder
      simpa [hFree'] using hHolder
    · simpa [hne] using hHolder
  · rcases eq_or_ne u t with rfl | hne
    · simp [hOpen] at hResolved
    · exact h.unset u (by simpa [hne] using hResolved)
  · rcases eq_or_ne u t with rfl | hne
    · simp [hAwake] at hParked
    · obtain ⟨v, hAnnounces⟩ := h.heard hFlag ⟨u, by simpa [hne] using hParked⟩
      have hOther : v ≠ t := fun hSame => by simp [hSame, hSilent] at hAnnounces
      exact ⟨v, by simpa [hOther] using hAnnounces⟩
  · rcases eq_or_ne u t with rfl | hne
    · simpa using hTold _ _
    · simpa [hne] using h.told u

/-- `notify_all` takes nobody out of the mutex. -/
theorem notified_holds (place : SignalPlace) : place.notified.holds = place.holds ∧
    place.notified.resolved = place.resolved ∧ place.notified.announces = place.announces ∧
    place.notified.isParked = false := by
  cases place <;> exact ⟨rfl, rfl, rfl, rfl⟩

theorem Told.notified {flag : Bool} {events : List SignalEvent} {place : SignalPlace}
    (h : Told flag events place) : Told flag events place.notified := by
  cases place <;> exact h

theorem SignalSteady.go (h : SignalSteady s) {t : Thread} {now : Instant}
    {inner : ShutdownInner Thread} {place : SignalPlace} {event : Option SignalEvent}
    {others : Thread → SignalPlace}
    (hAdvance : s.inner.advance t now (s.threads t) = some (inner, place, event))
    (hOthers : ∀ u, (others u).holds = (s.threads u).holds ∧
      (others u).resolved = (s.threads u).resolved ∧
      (others u).announces = (s.threads u).announces ∧
      ((others u).isParked = true → (s.threads u).isParked = true ∧ s.threads t ≠ .announcing))
    (hTold : ∀ u flag events, Told flag events (s.threads u) → Told flag events (others u)) :
    SignalSteady ⟨inner, now, Function.update others t place,
      s.trace ++ (event.map fun e => (t, e)).toList⟩ := by
  obtain ⟨hMine, hTheirs⟩ := advance_holds hAdvance (h.holder t)
  have hFlag := advance_signalled hAdvance
  have hMono : s.inner.signalled = true → inner.signalled = true := by
    intro hSet
    rcases hFlag with ⟨hSame, -⟩ | ⟨-, -, hNow, -⟩
    · rw [hSame, hSet]
    · exact hNow
  refine ⟨fun u => ?_, fun u hResolved => ?_, fun hSet ⟨u, hParked⟩ => ?_, ?_, fun u => ?_⟩
  · rcases eq_or_ne u t with rfl | hne
    · simpa using hMine
    · have hHolder := h.holder u
      rw [← hTheirs u hne, ← (hOthers u).1] at hHolder
      simpa [hne] using hHolder
  · rcases eq_or_ne u t with rfl | hne
    · exact advance_resolves hAdvance (by simpa using hResolved) (h.unset u)
    · have hBefore : (s.threads u).resolved = true := by
        rw [← (hOthers u).2.1]
        simpa [hne] using hResolved
      rcases hFlag with ⟨hSame, -⟩ | ⟨hStoring, -⟩
      · exact hSame.trans (h.unset u hBefore)
      · -- the thread that stores holds the mutex, and this one would hold it too
        have hT := (h.holder t).mp (by rw [hStoring]; rfl)
        have hU := (h.holder u).mp (SignalPlace.holds_of_resolved hBefore)
        exact absurd (Option.some.inj (hU.symm.trans hT)) hne
  · rcases hFlag with ⟨hSame, -⟩ | ⟨-, rfl, -, -⟩
    · rw [hSame] at hSet
      rcases eq_or_ne u t with rfl | hne
      · have hUnset := h.unset u (advance_parks hAdvance (by simpa using hParked))
        rw [hUnset] at hSet
        cases hSet
      · obtain ⟨hBefore, hStill⟩ := (hOthers u).2.2.2 (by simpa [hne] using hParked)
        obtain ⟨v, hAnnounces⟩ := h.heard hSet ⟨u, hBefore⟩
        rcases eq_or_ne v t with rfl | hOther
        · rcases advance_announces hAdvance hAnnounces with hGoesOn | hDone
          · exact ⟨v, by simpa using hGoesOn⟩
          · exact absurd hDone hStill
        · rw [← (hOthers v).2.2.1] at hAnnounces
          exact ⟨v, by simpa [hOther] using hAnnounces⟩
    · exact ⟨t, by simp [SignalPlace.announces]⟩
  · rcases hFlag with ⟨hSame, hEvent⟩ | ⟨-, -, hSet, rfl⟩
    · rw [hSame, h.stored]
      cases event with
      | none => simp
      | some e =>
          have hOther : e ≠ .stored := fun hE => hEvent (congrArg some hE)
          simp [hOther.symm]
    · simp [hSet]
  · rcases eq_or_ne u t with rfl | hne
    · have hNow := advance_told hAdvance (h.told u)
      cases event with
      | none => simpa using hNow
      | some e => simpa [signalEventsOf] using hNow
    · have hThen := (hTold u _ _ (h.told u)).mono hMono
      cases event with
      | none => simpa [hne] using hThen
      | some e => simpa [hne, signalEventsOf, hne.symm] using hThen

theorem SignalSteady.step (h : SignalSteady s) (hStep : SignalStep s label s') :
    SignalSteady s' := by
  cases label with
  | call t k =>
      simp only [SignalStep, SignalConfig.exec, Option.ite_none_right_eq_some,
        Option.some.injEq] at hStep
      obtain ⟨hIdle, rfl⟩ := hStep
      refine h.relocate (by rw [hIdle]; rfl) (by rw [hIdle]; rfl) ?_ ?_ ?_ ?_ <;> cases k
      all_goals first | rfl | exact fun _ _ => trivial
  | wake t timedOut =>
      cases hPlace : s.threads t with
      | parked deadline =>
          simp only [SignalStep, SignalConfig.exec, hPlace, Option.ite_none_right_eq_some,
            Option.some.injEq] at hStep
          obtain ⟨-, rfl⟩ := hStep
          exact h.relocate (by rw [hPlace]; rfl) (by rw [hPlace]; rfl) rfl rfl rfl fun _ _ => trivial
      | _ => simp [SignalStep, SignalConfig.exec, hPlace] at hStep
  | go t now =>
      simp only [SignalStep, SignalConfig.exec, Option.ite_none_right_eq_some,
        Option.map_eq_some_iff] at hStep
      obtain ⟨-, ⟨inner, place, event⟩, hAdvance, rfl⟩ := hStep
      refine h.go hAdvance (fun u => ?_) fun u flag events hTold => ?_
      · split_ifs with hAnnouncing
        · obtain ⟨hHolds, hResolved, hAnnounces, hAwake⟩ := notified_holds (s.threads u)
          exact ⟨hHolds, hResolved, hAnnounces, fun hParked => by simp [hAwake] at hParked⟩
        · exact ⟨rfl, rfl, rfl, fun hParked => ⟨hParked, hAnnouncing⟩⟩
      · split_ifs with hAnnouncing
        · exact hTold.notified
        · exact hTold

theorem signalled_stays (hStep : SignalStep s label s')
    (hSet : s.inner.signalled = true) : s'.inner.signalled = true := by
  cases label with
  | call t k =>
      simp only [SignalStep, SignalConfig.exec, Option.ite_none_right_eq_some,
        Option.some.injEq] at hStep
      exact hStep.2 ▸ hSet
  | wake t timedOut =>
      cases hPlace : s.threads t with
      | parked deadline =>
          simp only [SignalStep, SignalConfig.exec, hPlace, Option.ite_none_right_eq_some,
            Option.some.injEq] at hStep
          exact hStep.2 ▸ hSet
      | _ => simp [SignalStep, SignalConfig.exec, hPlace] at hStep
  | go t now =>
      simp only [SignalStep, SignalConfig.exec, Option.ite_none_right_eq_some,
        Option.map_eq_some_iff] at hStep
      obtain ⟨-, ⟨inner, place, event⟩, hAdvance, rfl⟩ := hStep
      rcases advance_signalled hAdvance with ⟨hSame, -⟩ | ⟨-, -, hNow, -⟩
      · exact hSame.trans hSet
      · exact hNow

theorem signalSteady_of_reachable {clock : Instant}
    (reach : Reachable SignalStep (.new Thread clock) s) : SignalSteady s :=
  reach.invariant SignalSteady (signalSteady_new clock) fun _ _ _ h hStep => h.step hStep

/-- What the events of a run say about their readings and answers. -/
structure Truthful (trace : List (Thread × SignalEvent)) : Prop where
  /-- A reading of the flag shows whether it has been stored. -/
  reads : ∀ before t flag after, trace = before ++ (t, .read flag) :: after →
    (flag = true ↔ ∃ u, (u, .stored) ∈ before)
  /-- A wait returns for a reason, and with `true` only once the flag has been stored. -/
  returns : ∀ before t deadline answer after,
    trace = before ++ (t, .returned deadline answer) :: after →
    Answers deadline (signalEventsOf t before) answer ∧
      (answer = true → ∃ u, (u, .stored) ∈ before)

theorem Truthful.concat {trace : List (Thread × SignalEvent)} {t : Thread} {e : SignalEvent}
    (h : Truthful trace)
    (hRead : ∀ flag, e = .read flag → (flag = true ↔ ∃ u, (u, .stored) ∈ trace))
    (hReturn : ∀ deadline answer, e = .returned deadline answer →
      Answers deadline (signalEventsOf t trace) answer ∧
        (answer = true → ∃ u, (u, .stored) ∈ trace)) : Truthful (trace ++ [(t, e)]) := by
  refine ⟨fun before u flag after hSplit => ?_, fun before u deadline answer after hSplit => ?_⟩
  · rcases split_concat hSplit with ⟨rfl, hLast⟩ | ⟨rest, hEarlier⟩
    · cases hLast
      exact hRead flag rfl
    · exact h.reads before u flag rest hEarlier
  · rcases split_concat hSplit with ⟨rfl, hLast⟩ | ⟨rest, hEarlier⟩
    · cases hLast
      exact hReturn deadline answer rfl
    · exact h.returns before u deadline answer rest hEarlier

theorem Truthful.step (h : Truthful s.trace) (hSteady : SignalSteady s)
    (hStep : SignalStep s label s') : Truthful s'.trace := by
  cases label with
  | call t k =>
      simp only [SignalStep, SignalConfig.exec, Option.ite_none_right_eq_some,
        Option.some.injEq] at hStep
      exact hStep.2 ▸ h
  | wake t timedOut =>
      cases hPlace : s.threads t with
      | parked deadline =>
          simp only [SignalStep, SignalConfig.exec, hPlace, Option.ite_none_right_eq_some,
            Option.some.injEq] at hStep
          exact hStep.2 ▸ h
      | _ => simp [SignalStep, SignalConfig.exec, hPlace] at hStep
  | go t now =>
      simp only [SignalStep, SignalConfig.exec, Option.ite_none_right_eq_some,
        Option.map_eq_some_iff] at hStep
      obtain ⟨-, ⟨inner, place, event⟩, hAdvance, rfl⟩ := hStep
      cases event with
      | none => simpa using h
      | some e =>
          refine h.concat (fun flag hE => ?_) fun deadline answer hE => ?_
          · subst hE
            rw [advance_reads hAdvance]
            exact hSteady.stored
          · subst hE
            have hTold := hSteady.told t
            rw [advance_returns hAdvance] at hTold
            exact ⟨hTold.1, fun hTrue => hSteady.stored.mp (hTold.2 hTrue)⟩

/-- No thread sleeps through the signal, and every wait returns for its reason. -/
structure NoWakeupLost (s : SignalConfig Thread) : Prop where
  /-- Once the flag is set and announced, nobody is parked. -/
  awake : s.inner.signalled = true → (∀ t, (s.threads t).announces = false) →
    ∀ t, (s.threads t).isParked = false
  truthful : Truthful s.trace
  flag : s.inner.signalled = true ↔ ∃ u, (u, .stored) ∈ s.trace
  stays : s.inner.signalled = true → ∀ s', Reachable SignalStep s s' → s'.inner.signalled = true

/-- The signal reaches every waiter, whatever the order of the steps. -/
theorem no_wakeup_lost (clock : Instant) (s : SignalConfig Thread)
    (reach : Reachable SignalStep (.new Thread clock) s) : NoWakeupLost s := by
  have hSteady := signalSteady_of_reachable reach
  refine ⟨fun hSet hSilent t => ?_, ?_, hSteady.stored, fun hSet s' hOn => ?_⟩
  · by_contra hParked
    obtain ⟨u, hAnnounces⟩ := hSteady.heard hSet ⟨t, by simpa using hParked⟩
    rw [hSilent u] at hAnnounces
    cases hAnnounces
  · refine (reach.invariant (fun s => SignalSteady s ∧ Truthful s.trace)
      ⟨signalSteady_new clock, ⟨?_, ?_⟩⟩ fun s _ s' h hStep => ⟨h.1.step hStep, h.2.step h.1 hStep⟩).2
    · intro before t flag after hSplit
      simp [SignalConfig.new] at hSplit
    · intro before t deadline answer after hSplit
      simp [SignalConfig.new] at hSplit
  · exact hOn.invariant (fun s => s.inner.signalled = true) hSet fun _ _ _ h hStep =>
      signalled_stays hStep h

/-- A thread that parks before the signal is sent is woken by it and returns. -/
theorem no_wakeup_lost_parked : ∃ s : SignalConfig Bool,
    Reachable SignalStep (.new Bool 0) s ∧ s.inner.signalled = true ∧
    (true, .returned none true) ∈ s.trace ∧ NoWakeupLost s := by
  obtain ⟨s, hRun, hSet, hReturned⟩ : ∃ s : SignalConfig Bool,
      replay SignalConfig.exec (.new Bool 0) [.call true .waitForSignal, .go true 0, .go true 0,
        .go true 0, .call false .signal, .go false 0, .go false 0, .go false 0, .go false 0,
        .go true 0, .go true 0, .go true 0] = some s ∧ s.inner.signalled = true ∧
      (true, .returned none true) ∈ s.trace := ⟨_, rfl, rfl, by decide⟩
  have reach := (runs_of_replay hRun).reachable
  exact ⟨s, reach, hSet, hReturned, no_wakeup_lost 0 s reach⟩

end Runs

end ServiceKernel
