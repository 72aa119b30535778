import Mathlib.Algebra.Group.Nat.Defs
import Mathlib.Data.List.Nodup
import ServiceKernel.Events.Dispatcher
import ServiceKernel.Semantics.Reentrant

/-! What the dispatcher is for: an ordered list of live subscriptions. The two maps
refine it through every sequence of calls, also those that handlers make in
the middle of a delivery, as long as the id counter has not come round. -/
namespace ServiceKernel

open Execution Reentrant

/-- A call through the dispatcher or any of its handles, with what it returned; for
an emit, the handlers its lookup found. -/
inductive DispatcherLabel (Event Handler : Type) where
  | subscribed (topic : String) (handler : Handler) (id : SubscriptionId)
  | unsubscribed (id : SubscriptionId) (answer : Bool)
  | counted (topic : String) (count : Nat)
  | emitted (event : Event) (handlers : List Handler)

namespace DispatcherLabel

variable {Event Handler : Type}

/-- The handlers to invoke before the call returns. -/
def invokes : DispatcherLabel Event Handler → List Handler
  | .emitted _ handlers => handlers
  | _ => []

def issues : DispatcherLabel Event Handler → Option SubscriptionId
  | .subscribed _ _ id => some id
  | _ => none

/-- An unsubscribe of this id that returned true. -/
def grants (id : SubscriptionId) : DispatcherLabel Event Handler → Bool
  | .unsubscribed other answer => other == id && answer
  | _ => false

end DispatcherLabel

section Calls

variable {Event Handler : Type} (topicOf : Event → String)

/-- One call, up to the point where an emit has released the routes. -/
def dispatcherStep (d : Dispatcher Handler) (label : DispatcherLabel Event Handler)
    (d' : Dispatcher Handler) : Prop :=
  match label with
  | .subscribed topic handler id => d.subscribe topic handler = (id, d')
  | .unsubscribed id answer => d.unsubscribe id = (answer, d')
  | .counted topic count => d.subscriberCount topic = count ∧ d' = d
  | .emitted event handlers => d.handlersFor (topicOf event) = handlers ∧ d' = d

/-- A tree of calls, the handlers making calls of their own. -/
abbrev Dispatches (d : Dispatcher Handler) (acts : Acts (DispatcherLabel Event Handler) Handler)
    (d' : Dispatcher Handler) : Prop :=
  Performs (dispatcherStep topicOf) DispatcherLabel.invokes d acts d'

end Calls

/-- A subscription as its subscriber sees it. -/
structure Subscription (Handler : Type) where
  id : SubscriptionId
  topic : String
  handler : Handler

section Refinement

variable {Event Handler : Type} (topicOf : Event → String)

/-- What a call does to the live subscriptions. -/
def Subscription.after (live : List (Subscription Handler)) :
    DispatcherLabel Event Handler → List (Subscription Handler)
  | .subscribed topic handler id => live ++ [⟨id, topic, handler⟩]
  | .unsubscribed id _ => live.filter fun s => s.id ≠ id
  | _ => live

/-- The subscriptions not yet unsubscribed, in the order in which they were made. -/
def liveAfter (calls : List (DispatcherLabel Event Handler)) : List (Subscription Handler) :=
  calls.foldl Subscription.after []

/-- Those of one topic. -/
def liveOn (topic : String) (calls : List (DispatcherLabel Event Handler)) :
    List (Subscription Handler) := (liveAfter calls).filter fun s => s.topic = topic

def issued (calls : List (DispatcherLabel Event Handler)) : List SubscriptionId :=
  calls.filterMap DispatcherLabel.issues

/-- What a call returns and whom it invokes, by the calls before it. -/
def Faithful (before : List (DispatcherLabel Event Handler))
    (label : DispatcherLabel Event Handler) (invoked : List Handler) : Prop :=
  match label with
  | .subscribed _ _ id => invoked = [] ∧ id ∉ issued before
  | .unsubscribed id answer => invoked = [] ∧ (answer = true ↔ ∃ s ∈ liveAfter before, s.id = id)
  | .counted topic count => invoked = [] ∧ count = (liveOn topic before).length
  | .emitted event _ => invoked = (liveOn (topicOf event) before).map Subscription.handler

/-- No id is granted twice, and an issued one is granted once it has been unsubscribed. -/
def GrantedOnce (calls : List (DispatcherLabel Event Handler)) : Prop :=
  ∀ id, calls.countP (DispatcherLabel.grants id) ≤ 1 ∧
    ∀ before answer after, calls = before ++ .unsubscribed id answer :: after → id ∈ issued before →
      calls.countP (DispatcherLabel.grants id) = 1

variable {topicOf} {calls : List (DispatcherLabel Event Handler)} {d d' : Dispatcher Handler}
  {label : DispatcherLabel Event Handler} {topic : String} {id : SubscriptionId} {handler : Handler}

@[simp] theorem liveAfter_concat :
    liveAfter (calls ++ [label]) = Subscription.after (liveAfter calls) label := by
  simp [liveAfter]

@[simp] theorem issued_subscribed :
    issued (calls ++ [DispatcherLabel.subscribed topic handler id]) = issued calls ++ [id] := by
  simp [issued, DispatcherLabel.issues]

theorem issued_concat (h : label.issues = none) : issued (calls ++ [label]) = issued calls := by
  simp [issued, h]

@[simp] theorem liveOn_subscribed {other : String} :
    liveOn other (calls ++ [DispatcherLabel.subscribed topic handler id]) =
      liveOn other calls ++ if topic = other then [⟨id, topic, handler⟩] else [] := by
  rw [liveOn, liveAfter_concat, Subscription.after, List.filter_append, liveOn]
  split_ifs with hSame <;> simp [hSame]

@[simp] theorem liveOn_unsubscribed {answer : Bool} :
    liveOn topic (calls ++ [DispatcherLabel.unsubscribed id answer]) =
      (liveOn topic calls).filter fun s => s.id ≠ id := by
  rw [liveOn, liveAfter_concat, Subscription.after, liveOn, List.filter_comm]

/-- The dispatcher's maps hold the live subscriptions, each topic in order. -/
structure Refines (calls : List (DispatcherLabel Event Handler)) (d : Dispatcher Handler) :
    Prop where
  routes : ∀ topic, d.lookup topic = (liveOn topic calls).map fun s => (s.id, s.handler)
  tidy : d.Tidy
  index : ∀ id topic, d.byId id = some topic ↔ ∃ s ∈ liveAfter calls, s.id = id ∧ s.topic = topic
  nodup : ((liveAfter calls).map Subscription.id).Nodup
  liveIssued : ∀ s ∈ liveAfter calls, s.id ∈ issued calls
  counter : d.nextId = UInt64.ofNat (issued calls).length
  drawn : ∀ id ∈ issued calls, id.toNat < (issued calls).length
  granted : ∀ id, calls.countP (DispatcherLabel.grants id) =
    if id ∈ issued calls ∧ ∀ s ∈ liveAfter calls, s.id ≠ id then 1 else 0

namespace Refines

theorem new : Refines ([] : List (DispatcherLabel Event Handler)) .new where
  routes _ := rfl
  tidy := Dispatcher.tidy_new
  index := by simp [liveAfter]
  nodup := List.nodup_nil
  liveIssued := by simp [liveAfter]
  counter := rfl
  drawn := by simp [issued]
  granted := by simp [issued]

/-- The id the counter stands at has not been issued. -/
theorem fresh (h : Refines calls d) (hRoom : (issued calls).length < 2 ^ 64) :
    d.nextId.toNat = (issued calls).length ∧ d.nextId ∉ issued calls := by
  have hAt : d.nextId.toNat = (issued calls).length := by
    rw [h.counter, UInt64.toNat_ofNat']
    exact Nat.mod_eq_of_lt hRoom
  refine ⟨hAt, fun hMem => ?_⟩
  have := h.drawn _ hMem
  omega

theorem subscribed (h : Refines calls d) (topic : String) (handler : Handler)
    (hRoom : (issued calls).length < 2 ^ 64) :
    Refines (calls ++ [DispatcherLabel.subscribed topic handler (d.subscribe topic handler).1])
      (d.subscribe topic handler).2 := by
  obtain ⟨hAt, hFresh⟩ := h.fresh hRoom
  have hNoLive : ∀ s ∈ liveAfter calls, s.id ≠ d.nextId := fun s hMem hSame =>
    hFresh (hSame ▸ h.liveIssued s hMem)
  simp only [Dispatcher.subscribe, Dispatcher.drawId_fst]
  constructor
  · intro other
    rw [Dispatcher.lookup_insertIndex, Dispatcher.lookup_insertRoute, liveOn_subscribed]
    rcases eq_or_ne other topic with rfl | hne
    · simp [h.routes]
    · simp [h.routes, hne, hne.symm]
  · exact Dispatcher.tidy_insertIndex (Dispatcher.tidy_insertRoute (Dispatcher.tidy_drawId h.tidy))
  · intro id other
    rw [Dispatcher.byId_insertIndex, Dispatcher.byId_insertRoute, Dispatcher.byId_drawId,
      liveAfter_concat, Subscription.after]
    rcases eq_or_ne id d.nextId with rfl | hne
    · simp only [Function.update_self, Option.some.injEq, List.mem_append, List.mem_singleton]
      constructor
      · rintro rfl
        exact ⟨_, Or.inr rfl, rfl, rfl⟩
      · rintro ⟨s, hMem | rfl, hId, hTopic⟩
        · exact absurd hId (hNoLive s hMem)
        · exact hTopic
    · rw [Function.update_of_ne hne, h.index]
      simp [or_and_right, exists_or, hne.symm]
  · rw [liveAfter_concat, Subscription.after, List.map_append, List.nodup_append]
    refine ⟨h.nodup, by simp, ?_⟩
    simpa using hNoLive
  · rw [liveAfter_concat, Subscription.after, issued_subscribed]
    intro s hMem
    rcases List.mem_append.mp hMem with hOld | hNew
    · exact List.mem_append_left _ (h.liveIssued s hOld)
    · rw [List.mem_singleton] at hNew
      simp [hNew]
  · rw [issued_subscribed, Dispatcher.nextId_insertIndex, Dispatcher.nextId_insertRoute,
      Dispatcher.nextId_drawId, h.counter]
    simp
  · rw [issued_subscribed]
    intro id hMem
    rw [List.length_append, List.length_singleton]
    rcases List.mem_append.mp hMem with hOld | hNew
    · exact Nat.lt_succ_of_lt (h.drawn id hOld)
    · rw [List.mem_singleton.mp hNew, hAt]
      exact Nat.lt_succ_self _
  · intro id
    rw [List.countP_append, h.granted, issued_subscribed, liveAfter_concat, Subscription.after]
    rcases eq_or_ne id d.nextId with rfl | hne
    · simp [hFresh, DispatcherLabel.grants]
    · simp [hne, hne.symm, DispatcherLabel.grants, or_imp, forall_and]

/-- A live subscription is in the routes of its topic. -/
theorem routed (h : Refines calls d) {s : Subscription Handler} (hLive : s ∈ liveAfter calls) :
    s.id ∈ (d.lookup s.topic).map Prod.fst := by
  rw [h.routes, List.map_map, List.mem_map]
  exact ⟨s, List.mem_filter.mpr ⟨hLive, by simp⟩, rfl⟩

theorem lookup_nodup (h : Refines calls d) : ((d.lookup topic).map Prod.fst).Nodup := by
  rw [h.routes, List.map_map]
  exact h.nodup.sublist (List.filter_sublist.map _)

/-- What an unsubscribe does to the maps, if the index has the id and if not. -/
theorem removed (h : Refines calls d) (id : SubscriptionId) : (d.unsubscribe id).2.Tidy ∧
    (d.unsubscribe id).2.byId = Function.update d.byId id none ∧
    (d.unsubscribe id).2.nextId = d.nextId ∧
    (∀ topic, (d.unsubscribe id).2.lookup topic =
      (d.lookup topic).filter fun registration => registration.1 ≠ id) ∧
    ((d.unsubscribe id).1 = true ↔ ∃ s ∈ liveAfter calls, s.id = id) := by
  cases hIndex : d.byId id with
  | none =>
      have hNone : ∀ s ∈ liveAfter calls, s.id ≠ id := by
        intro s hMem hSame
        have hSome := (h.index id s.topic).mpr ⟨s, hMem, hSame, rfl⟩
        simp [hIndex] at hSome
      rw [Dispatcher.unsubscribe_of_none hIndex]
      refine ⟨Dispatcher.tidy_removeIndex h.tidy, rfl, rfl, fun topic => ?_, by simpa using hNone⟩
      refine (List.filter_eq_self.mpr fun registration hMem => ?_).symm
      rw [Dispatcher.lookup_removeIndex, h.routes] at hMem
      obtain ⟨s, hOn, rfl⟩ := List.mem_map.mp hMem
      simpa using hNone s (List.mem_of_mem_filter hOn)
  | some topic =>
      obtain ⟨s, hLive, rfl, rfl⟩ := (h.index id topic).mp hIndex
      rw [Dispatcher.unsubscribe_of_some hIndex]
      refine ⟨Dispatcher.tidy_removeRoute (Dispatcher.tidy_removeIndex h.tidy), by simp, by simp,
        fun topic => ?_, ?_⟩
      · have hNodup : (((d.removeIndex s.id).2.lookup s.topic).map Prod.fst).Nodup := h.lookup_nodup
        rw [Dispatcher.lookup_removeRoute hNodup, Dispatcher.lookup_removeIndex]
        rcases eq_or_ne topic s.topic with rfl | hne
        · simp
        · rw [Function.update_of_ne hne]
          refine (List.filter_eq_self.mpr fun registration hMem => ?_).symm
          rw [h.routes] at hMem
          obtain ⟨other, hOn, rfl⟩ := List.mem_map.mp hMem
          obtain ⟨hOther, hTopic⟩ := List.mem_filter.mp hOn
          have hDistinct : other.id ≠ s.id := fun hSame => by
            obtain rfl := List.inj_on_of_nodup_map h.nodup hOther hLive hSame
            exact hne ((of_decide_eq_true hTopic).symm)
          simpa using hDistinct
      · rw [Dispatcher.removeRoute_fst, Dispatcher.lookup_removeIndex]
        exact ⟨fun _ => ⟨s, hLive, rfl⟩, fun _ => h.routed hLive⟩

theorem unsubscribed (h : Refines calls d) (id : SubscriptionId) :
    Refines (calls ++ [DispatcherLabel.unsubscribed id (d.unsubscribe id).1])
      (d.unsubscribe id).2 := by
  obtain ⟨hTidy, hIndex, hNext, hLookup, hAnswer⟩ := h.removed id
  have hIssued : issued (calls ++ [DispatcherLabel.unsubscribed id (d.unsubscribe id).1]) =
      issued calls := issued_concat rfl
  constructor
  · intro topic
    rw [hLookup, h.routes, liveOn_unsubscribed, List.filter_map]
    rfl
  · exact hTidy
  · intro other topic
    rw [hIndex, liveAfter_concat, Subscription.after]
    rcases eq_or_ne other id with rfl | hne
    · simp only [Function.update_self, reduceCtorEq, false_iff]
      rintro ⟨s, hMem, hId, -⟩
      have hOther : s.id ≠ other := by simpa using List.of_mem_filter hMem
      exact hOther hId
    · rw [Function.update_of_ne hne, h.index]
      constructor
      · rintro ⟨s, hMem, rfl, rfl⟩
        exact ⟨s, List.mem_filter.mpr ⟨hMem, by simpa using hne⟩, rfl, rfl⟩
      · rintro ⟨s, hMem, hId, hTopic⟩
        exact ⟨s, List.mem_of_mem_filter hMem, hId, hTopic⟩
  · rw [liveAfter_concat, Subscription.after]
    exact h.nodup.sublist (List.filter_sublist.map _)
  · rw [liveAfter_concat, hIssued]
    exact fun s hMem => h.liveIssued s (List.mem_of_mem_filter hMem)
  · rw [hIssued, hNext]
    exact h.counter
  · rw [hIssued]
    exact h.drawn
  · intro other
    rw [List.countP_append, h.granted, hIssued, liveAfter_concat, Subscription.after]
    rcases eq_or_ne other id with rfl | hne
    · by_cases hLive : ∃ s ∈ liveAfter calls, s.id = other
      · obtain ⟨s, hMem, rfl⟩ := hLive
        have hGranted := hAnswer.mpr ⟨s, hMem, rfl⟩
        have hBefore : ¬ (s.id ∈ issued calls ∧ ∀ other ∈ liveAfter calls, other.id ≠ s.id) :=
          fun hAll => hAll.2 s hMem rfl
        have hAfter : s.id ∈ issued calls ∧
            ∀ other ∈ (liveAfter calls).filter (fun other => other.id ≠ s.id), other.id ≠ s.id :=
          ⟨h.liveIssued s hMem, fun other hIn => by simpa using List.of_mem_filter hIn⟩
        rw [if_neg hBefore, if_pos hAfter, hGranted]
        simp [DispatcherLabel.grants]
      · have hRefused : (d.unsubscribe other).1 = false := by
          simpa [← Bool.not_eq_true, hAnswer] using hLive
        have hNone : ∀ s ∈ liveAfter calls, s.id ≠ other := by simpa using hLive
        have hStill : ∀ s ∈ (liveAfter calls).filter (fun s => s.id ≠ other), s.id ≠ other :=
          fun s hMem => hNone s (List.mem_of_mem_filter hMem)
        rw [if_congr (and_congr_right fun _ => iff_of_true hNone hStill) rfl rfl]
        simp [hRefused, DispatcherLabel.grants]
    · have hSame : (∀ s ∈ (liveAfter calls).filter (fun s => s.id ≠ id), s.id ≠ other) ↔
          ∀ s ∈ liveAfter calls, s.id ≠ other := by
        refine ⟨fun hAll s hMem hId => ?_, fun hAll s hMem => hAll s (List.mem_of_mem_filter hMem)⟩
        exact hAll s (List.mem_filter.mpr ⟨hMem, by simpa [hId] using hne⟩) hId
      rw [if_congr (and_congr_right fun _ => hSame) rfl rfl]
      simp [DispatcherLabel.grants, hne.symm]

/-- A call that touches neither map. -/
theorem untouched (h : Refines calls d) (hLive : Subscription.after (liveAfter calls) label = liveAfter calls)
    (hIssues : label.issues = none) (hGrants : ∀ id, label.grants id = false) :
    Refines (calls ++ [label]) d := by
  have hSame : liveAfter (calls ++ [label]) = liveAfter calls := by rw [liveAfter_concat, hLive]
  have hIssued : issued (calls ++ [label]) = issued calls := issued_concat hIssues
  constructor
  · intro topic
    rw [liveOn, hSame]
    exact h.routes topic
  · exact h.tidy
  · rw [hSame]
    exact h.index
  · rw [hSame]
    exact h.nodup
  · rw [hSame, hIssued]
    exact h.liveIssued
  · rw [hIssued]
    exact h.counter
  · rw [hIssued]
    exact h.drawn
  · intro id
    rw [List.countP_append, hIssued, hSame, h.granted]
    simp [hGrants]

/-- One call: the maps follow the list, and it answers by the list. -/
theorem step (h : Refines calls d) (hStep : dispatcherStep topicOf d label d')
    (hRoom : (issued (calls ++ [label])).length ≤ 2 ^ 64) :
    Refines (calls ++ [label]) d' ∧ Faithful topicOf calls label label.invokes := by
  cases label with
  | subscribed topic handler id =>
      rw [issued_subscribed, List.length_append, List.length_singleton] at hRoom
      have hStep : d.subscribe topic handler = (id, d') := hStep
      have hNext := h.subscribed topic handler hRoom
      rw [hStep] at hNext
      refine ⟨hNext, rfl, ?_⟩
      obtain rfl : d.nextId = id := congrArg Prod.fst hStep
      exact (h.fresh hRoom).2
  | unsubscribed id answer =>
      have hStep : d.unsubscribe id = (answer, d') := hStep
      have hNext := h.unsubscribed id
      obtain ⟨-, -, -, -, hAnswer⟩ := h.removed id
      rw [hStep] at hNext hAnswer
      exact ⟨hNext, rfl, hAnswer⟩
  | counted topic count =>
      obtain ⟨rfl, rfl⟩ := hStep
      refine ⟨h.untouched rfl rfl fun id => rfl, rfl, ?_⟩
      rw [Dispatcher.subscriberCount_eq, h.routes, List.length_map]
  | emitted event handlers =>
      obtain ⟨rfl, rfl⟩ := hStep
      refine ⟨h.untouched rfl rfl fun id => rfl, ?_⟩
      rw [Faithful, DispatcherLabel.invokes, Dispatcher.handlersFor, h.routes, List.map_map]
      rfl

/-- An issued id that is no longer live stays so. -/
theorem withdrawn (h : Refines calls d) (hStep : dispatcherStep topicOf d label d')
    (hRoom : (issued (calls ++ [label])).length ≤ 2 ^ 64) (hIssued : id ∈ issued calls)
    (hNone : ∀ s ∈ liveAfter calls, s.id ≠ id) :
    ∀ s ∈ liveAfter (calls ++ [label]), s.id ≠ id := by
  rw [liveAfter_concat]
  cases label with
  | subscribed topic handler other =>
      obtain ⟨-, -, hFresh⟩ := h.step hStep hRoom
      intro s hMem
      rcases List.mem_append.mp hMem with hOld | hNew
      · exact hNone s hOld
      · rw [List.mem_singleton.mp hNew]
        rintro rfl
        exact hFresh hIssued
  | unsubscribed other answer => exact fun s hMem => hNone s (List.mem_of_mem_filter hMem)
  | counted topic count => exact hNone
  | emitted event handlers => exact hNone

end Refines

theorem issued_le {more : List (DispatcherLabel Event Handler)} :
    (issued calls).length ≤ (issued (calls ++ more)).length := by
  simp [issued]

/-- The invariant of a run, which a run keeps until the ids are used up. -/
def RefinesWithin (calls : List (DispatcherLabel Event Handler)) (d : Dispatcher Handler) : Prop :=
  (issued calls).length ≤ 2 ^ 64 → Refines calls d

theorem refines_kept (calls : List (DispatcherLabel Event Handler)) (d : Dispatcher Handler)
    (label : DispatcherLabel Event Handler) (d' : Dispatcher Handler) (h : RefinesWithin calls d)
    (hStep : dispatcherStep topicOf d label d') : RefinesWithin (calls ++ [label]) d' :=
  fun hRoom => ((h (Nat.le_trans issued_le hRoom)).step hStep hRoom).1

theorem refines_of_runs {labels : List (DispatcherLabel Event Handler)}
    (run : Runs (dispatcherStep topicOf) .new labels d) : RefinesWithin labels d := by
  have hStart : RefinesWithin ([] : List (DispatcherLabel Event Handler)) .new :=
    fun _ => Refines.new
  exact kept_run refines_kept hStart run

theorem granted_once {labels : List (DispatcherLabel Event Handler)}
    (run : Runs (dispatcherStep topicOf) .new labels d) (hRoom : (issued labels).length ≤ 2 ^ 64) :
    GrantedOnce labels := by
  have hEnd := refines_of_runs run hRoom
  intro id
  refine ⟨?_, ?_⟩
  · rw [hEnd.granted]
    split_ifs <;> omega
  · rintro before answer after rfl hIssued
    rw [List.append_cons] at run hRoom hEnd ⊢
    obtain ⟨middle, hBefore, hAfter⟩ := Runs.append_iff.mp run
    -- from the unsubscribe on the id is issued and not live
    let gone : List (DispatcherLabel Event Handler) → Dispatcher Handler → Prop := fun calls d =>
      (issued calls).length ≤ 2 ^ 64 →
        Refines calls d ∧ id ∈ issued calls ∧ ∀ s ∈ liveAfter calls, s.id ≠ id
    have hStart : gone (before ++ [DispatcherLabel.unsubscribed id answer]) middle := by
      intro hEnough
      refine ⟨refines_of_runs hBefore hEnough, ?_, ?_⟩
      · rwa [issued_concat rfl]
      · rw [liveAfter_concat]
        exact fun s hMem => by simpa using List.of_mem_filter hMem
    have hKeep : ∀ calls d label d', gone calls d → dispatcherStep topicOf d label d' →
        gone (calls ++ [label]) d' := by
      intro calls d label d' hGone hStep hEnough
      obtain ⟨hRefines, hIn, hNone⟩ := hGone (Nat.le_trans issued_le hEnough)
      refine ⟨(hRefines.step hStep hEnough).1, ?_, hRefines.withdrawn hStep hEnough hIn hNone⟩
      rw [issued, List.filterMap_append]
      exact List.mem_append_left _ hIn
    obtain ⟨-, hIn, hNone⟩ := kept_run hKeep hStart hAfter hRoom
    rw [hEnd.granted, if_pos ⟨hIn, hNone⟩]

/-- The dispatcher refines the ordered list of live subscriptions: whatever handlers do in
the middle of a delivery, every call answers by the list, and no id is granted
twice. -/
theorem dispatcher_refines {acts : Acts (DispatcherLabel Event Handler) Handler}
    (h : Dispatches topicOf .new acts d) :
    acts.Each (fun before label invoked => (issued (before ++ [label])).length ≤ 2 ^ 64 →
        Faithful topicOf before label invoked) [] ∧
      ((issued acts.flatten).length ≤ 2 ^ 64 → GrantedOnce acts.flatten) := by
  have hStart : RefinesWithin ([] : List (DispatcherLabel Event Handler)) .new :=
    fun _ => Refines.new
  refine ⟨h.each refines_kept ?_ hStart, granted_once h.runs⟩
  intro before d label d' hInv hStep hRoom
  exact ((hInv (Nat.le_trans issued_le hRoom)).step hStep hRoom).2

/-- A delivery in the course of which the first handler drops the second, subscribes a
third, emits again and panics. -/
def reentrantDelivery : Acts (DispatcherLabel Unit Nat) Nat :=
  .cons (.subscribed "kernel.custom" 1 0) .nil <|
  .cons (.subscribed "kernel.custom" 2 1) .nil <|
  .cons (.emitted () [1, 2])
    (.cons 1
      (.cons (.unsubscribed 1 true) .nil <|
      .cons (.subscribed "kernel.custom" 3 2) .nil <|
      .cons (.emitted () [1, 3]) (.cons 1 .nil true (.cons 3 .nil false .nil)) .nil)
      true
      (.cons 2 (.cons (.unsubscribed 1 false) .nil .nil) false .nil)) <|
  .cons (.counted "kernel.custom" 2) .nil .nil

theorem dispatcher_refines_reentrant :
    reentrantDelivery.Each (fun before label invoked =>
        (issued (before ++ [label])).length ≤ 2 ^ 64 →
          Faithful (fun _ => "kernel.custom") before label invoked) [] ∧
      ((issued reentrantDelivery.flatten).length ≤ 2 ^ 64 →
        GrantedOnce reentrantDelivery.flatten) := by
  apply dispatcher_refines
  apply Performs.cons rfl (.nil _)
  apply Performs.cons rfl (.nil _)
  apply Performs.cons ⟨rfl, rfl⟩
  · apply Delivers.cons
    · apply Performs.cons rfl (.nil _)
      apply Performs.cons rfl (.nil _)
      exact .cons ⟨rfl, rfl⟩ (.cons (.nil _) (.cons (.nil _) (.nil _))) (.nil _)
    · exact .cons (.cons rfl (.nil _) (.nil _)) (.nil _)
  · exact .cons ⟨rfl, rfl⟩ (.nil _) (.nil _)

variable (topicOf) in
/-- Subscribe and unsubscribe at once, from any state. -/
theorem subscribe_unsubscribe (d : Dispatcher Handler) (topic : String) (handler : Handler) :
    ∃ d', Runs (dispatcherStep topicOf) d
        [.subscribed topic handler d.nextId, .unsubscribed d.nextId true] d' ∧
      d'.nextId = d.nextId + 1 := by
  refine ⟨((d.subscribe topic handler).2.unsubscribe d.nextId).2, ?_, ?_⟩
  · have hFirst : dispatcherStep topicOf d (.subscribed topic handler d.nextId)
        (d.subscribe topic handler).2 := rfl
    exact Runs.cons hFirst (Runs.single (Prod.ext Dispatcher.unsubscribe_subscribe rfl))
  · simp [Dispatcher.subscribe]

variable (topicOf) in
/-- Any number of such pairs, one after the other, moves the counter on by that number. -/
theorem subscribe_unsubscribe_many (d : Dispatcher Handler) (topic : String) (handler : Handler)
    (n : Nat) :
    ∃ labels d', Runs (dispatcherStep topicOf) d labels d' ∧
      d'.nextId = d.nextId + UInt64.ofNat n ∧ ∀ label ∈ labels, label.invokes = [] := by
  induction n with
  | zero => exact ⟨[], d, Runs.zero d, by simp, by simp⟩
  | succ n ih =>
      obtain ⟨labels, d', run, hNext, hNone⟩ := ih
      obtain ⟨d₂, hPair, hLast⟩ := subscribe_unsubscribe topicOf d' topic handler
      refine ⟨_, d₂, run.trans hPair, ?_, ?_⟩
      · rw [hLast, hNext, UInt64.add_assoc, UInt64.ofNat_add]
        rfl
      · intro label hMem
        simp only [List.mem_append, List.mem_cons, List.not_mem_nil, or_false] at hMem
        rcases hMem with hOld | rfl | rfl
        · exact hNone label hOld
        · rfl
        · rfl

/-- Without the bound the id counter comes round, and an old id is granted again. A process
that subscribes and unsubscribes long enough gets there, with never more than one
subscription at a time. -/
theorem not_dispatcher_refines :
    ¬ ∀ (Event Handler : Type) (topicOf : Event → String)
      (acts : Acts (DispatcherLabel Event Handler) Handler) (d : Dispatcher Handler),
      Dispatches topicOf .new acts d → acts.Each (Faithful topicOf) [] ∧ GrantedOnce acts.flatten := by
  intro hAll
  let topicOf : Unit → String := fun _ => "kernel.custom"
  obtain ⟨d₁, hFirst, hOne⟩ :=
    subscribe_unsubscribe topicOf (.new : Dispatcher Unit) "kernel.custom" ()
  obtain ⟨labels, d₂, hMany, hRound, hNone⟩ :=
    subscribe_unsubscribe_many topicOf d₁ "kernel.custom" () (2 ^ 64 - 1)
  obtain ⟨d₃, hAgain, -⟩ := subscribe_unsubscribe topicOf d₂ "kernel.custom" ()
  have hZero : d₂.nextId = 0 := by
    rw [hRound, hOne]
    rfl
  rw [hZero] at hAgain
  have run := (hFirst.trans hMany).trans hAgain
  have hInvokesNone : ∀ label ∈
      [DispatcherLabel.subscribed "kernel.custom" () 0, .unsubscribed 0 true] ++ labels ++
        [DispatcherLabel.subscribed "kernel.custom" () 0, .unsubscribed 0 true],
      (label : DispatcherLabel Unit Unit).invokes = [] := by
    intro label hMem
    simp only [List.mem_append, List.mem_cons, List.not_mem_nil, or_false] at hMem
    rcases hMem with ((rfl | rfl) | hMem) | rfl | rfl
    · rfl
    · rfl
    · exact hNone label hMem
    · rfl
    · rfl
  obtain ⟨-, hOnce⟩ := hAll Unit Unit topicOf _ d₃ (performs_flat hInvokesNone run)
  have hCount := (hOnce 0).1
  rw [flatten_flat] at hCount
  simp [DispatcherLabel.grants, List.countP_append] at hCount

end Refinement

end ServiceKernel
