import ServiceKernel.Events.Dispatcher
import ServiceKernel.Semantics.Chronicle
import ServiceKernel.Semantics.Typestate

/-! The dispatcher under any number of threads. Every section under one lock is one
step, so other threads see a subscription that is routed but not indexed yet,
or no longer indexed but still routed. What the maps hold is then told by how
far each id has come. -/
namespace ServiceKernel

open Interleaving

variable {Handler : Type}

/-- The sections under one lock, the draw of an id and the invocation of a handler. -/
inductive DispatcherOp (Handler : Type) where
  | drawId
  | insertRoute (topic : String) (id : SubscriptionId) (handler : Handler)
  | insertIndex (id : SubscriptionId) (topic : String)
  | removeIndex (id : SubscriptionId)
  | removeRoute (topic : String) (id : SubscriptionId)
  | lookup (topic : String)
  | invoke (registration : Registration Handler)

/-- What each of them answers. -/
abbrev DispatcherSig (Handler : Type) : Signature where
  Op := DispatcherOp Handler
  Ans
    | .drawId => SubscriptionId
    | .removeIndex _ => Option String
    | .removeRoute _ _ => Bool
    | .lookup _ => List (Registration Handler)
    | _ => Unit

/-- One such section as a program. -/
abbrev DispatcherOp.call (o : DispatcherOp Handler) :
    Program (DispatcherSig Handler) ((DispatcherSig Handler).Ans o) :=
  Program.call (S := DispatcherSig Handler) o

/-- Every operation can be answered. -/
instance (o : (DispatcherSig Handler).Op) : Nonempty ((DispatcherSig Handler).Ans o) := by
  cases o with
  | drawId => exact ⟨(0 : UInt64)⟩
  | removeIndex id => exact ⟨none⟩
  | removeRoute topic id => exact ⟨false⟩
  | lookup topic => exact ⟨[]⟩
  | _ => exact ⟨()⟩

/-- Handlers are compared as the pointers that are cloned out of the routes. -/
def dispatcherMachine (Thread Handler : Type) [DecidableEq Handler] :
    Machine (DispatcherSig Handler) Thread (Dispatcher Handler) (Deed (DispatcherSig Handler)) where
  exec _ o a d := match o, a with
    | .drawId, id => if id = d.drawId.1 then some d.drawId.2 else none
    | .insertRoute topic id handler, _ => some (d.insertRoute topic id handler)
    | .insertIndex id topic, _ => some (d.insertIndex id topic)
    | .removeIndex id, topic? =>
      if topic? = (d.removeIndex id).1 then some (d.removeIndex id).2 else none
    | .removeRoute topic id, answer =>
      if answer = (d.removeRoute topic id).1 then some (d.removeRoute topic id).2 else none
    | .lookup topic, registrations => if registrations = d.lookup topic then some d else none
    | .invoke _, _ => some d
  event o a := ⟨o, a⟩

namespace DispatcherSteps

/-- Between its steps the subscription is drawn but not routed, or routed but not indexed. -/
def subscribe (topic : String) (handler : Handler) :
    Program (DispatcherSig Handler) SubscriptionId := do
  let id ← DispatcherOp.drawId.call
  (DispatcherOp.insertRoute topic id handler).call
  (DispatcherOp.insertIndex id topic).call
  return id

/-- Between its two steps the subscription is no longer indexed, but still routed. -/
def unsubscribe (id : SubscriptionId) : Program (DispatcherSig Handler) Bool := do
  match ← (DispatcherOp.removeIndex id).call with
  | none => return false
  | some topic => (DispatcherOp.removeRoute topic id).call

/-- Invoke the handlers one after the other; a panic is caught and dropped. -/
def invokeAll : List (Registration Handler) → Program (DispatcherSig Handler) Unit
  | [] => return
  | registration :: rest => do
    (DispatcherOp.invoke registration).call
    invokeAll rest

/-- The routes are read once; what happens to them afterwards does not show. -/
def emit (topic : String) : Program (DispatcherSig Handler) Unit := do
  let registrations ← (DispatcherOp.lookup topic).call
  invokeAll registrations

end DispatcherSteps

/-- The public methods of a dispatcher and its handles. -/
inductive DispatcherCall (Handler : Type) where
  | subscribe (topic : String) (handler : Handler)
  | unsubscribe (id : SubscriptionId)
  | emit (topic : String)

/-- What they return. -/
inductive DispatcherResult where
  | issued (id : SubscriptionId)
  | removed (answer : Bool)
  | emitted
  deriving DecidableEq

/-- A call goes through its steps and returns what they came to. -/
def DispatcherCall.body : DispatcherCall Handler → Program (DispatcherSig Handler) DispatcherResult
  | .subscribe topic handler => do
    let id ← DispatcherSteps.subscribe topic handler
    return .issued id
  | .unsubscribe id => do
    let answer ← DispatcherSteps.unsubscribe id
    return .removed answer
  | .emit topic => do
    DispatcherSteps.emit topic
    return .emitted

section Solo

variable [DecidableEq Handler] {Thread : Type} {t : Thread}
  {w finish : World Thread (Dispatcher Handler) (Deed (DispatcherSig Handler))}

/-- Alone, the steps of a subscribe are the whole of it. -/
theorem solo_subscribe {topic : String} {handler : Handler} {id : SubscriptionId}
    (h : Solo (dispatcherMachine Thread Handler) t (DispatcherSteps.subscribe topic handler) w id
      finish) : (id, finish.shared) = w.shared.subscribe topic handler := by
  obtain ⟨drawn, s₁, hDraw, h⟩ := solo_perform_iff.mp h
  simp only [dispatcherMachine, Option.ite_none_right_eq_some, Option.some.injEq] at hDraw
  obtain ⟨rfl, rfl⟩ := hDraw
  obtain ⟨_, s₂, hRoute, h⟩ := solo_perform_iff.mp h
  obtain rfl := Option.some.inj hRoute
  obtain ⟨_, s₃, hIndex, h⟩ := solo_perform_iff.mp h
  obtain rfl := Option.some.inj hIndex
  obtain ⟨rfl, rfl⟩ := solo_done_iff.mp h
  rfl

/-- Alone, the steps of an unsubscribe are the whole of it. -/
theorem solo_unsubscribe {id : SubscriptionId} {answer : Bool}
    (h : Solo (dispatcherMachine Thread Handler) t (DispatcherSteps.unsubscribe id) w answer
      finish) : (answer, finish.shared) = w.shared.unsubscribe id := by
  obtain ⟨topic?, s₁, hIndex, h⟩ := solo_perform_iff.mp h
  simp only [dispatcherMachine, Option.ite_none_right_eq_some, Option.some.injEq] at hIndex
  obtain ⟨rfl, rfl⟩ := hIndex
  cases hFound : w.shared.byId id with
  | none =>
      simp only [Dispatcher.removeIndex_fst, hFound] at h
      obtain ⟨rfl, rfl⟩ := solo_done_iff.mp h
      rw [Dispatcher.unsubscribe_of_none hFound]
      rfl
  | some topic =>
      simp only [Dispatcher.removeIndex_fst, hFound] at h
      obtain ⟨found, s₂, hRoute, h⟩ := solo_perform_iff.mp h
      simp only [dispatcherMachine, Option.ite_none_right_eq_some, Option.some.injEq] at hRoute
      obtain ⟨rfl, rfl⟩ := hRoute
      obtain ⟨rfl, rfl⟩ := solo_done_iff.mp h
      rw [Dispatcher.unsubscribe_of_some hFound]
      rfl

end Solo

end ServiceKernel
