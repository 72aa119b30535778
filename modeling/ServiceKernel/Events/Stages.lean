import Mathlib.Data.List.Nodup
import ServiceKernel.Events.Steps

/-! How far every subscription id has come. Between the steps of a call the two maps
disagree; what each of them holds is a function of the stages of the ids, and
every stage that is not at rest has one thread that will carry it on. -/
namespace ServiceKernel

open Interleaving

/-- The stages of an id. From `routed` on its registration is in the routes, and only
while it is `live` the index has it. -/
inductive IdStage (Handler : Type) where
  | unissued
  | drawn
  | routed (topic : String) (handler : Handler)
  | live (topic : String) (handler : Handler)
  | removing (topic : String) (handler : Handler)
  | gone

namespace IdStage

variable {Handler : Type}

def rank : IdStage Handler → Nat
  | unissued => 0
  | drawn => 1
  | routed _ _ => 2
  | live _ _ => 3
  | removing _ _ => 4
  | gone => 5

theorem rank_le (stage : IdStage Handler) : stage.rank ≤ 5 := by
  cases stage <;> simp [rank]

/-- Some thread is about to carry the id on. -/
def transient : IdStage Handler → Bool
  | drawn => true
  | routed _ _ => true
  | removing _ _ => true
  | _ => false

/-- The routes have the id with this topic and handler. -/
def InRoutes (topic : String) (handler : Handler) : IdStage Handler → Prop
  | routed t h => t = topic ∧ h = handler
  | live t h => t = topic ∧ h = handler
  | removing t h => t = topic ∧ h = handler
  | _ => False

end IdStage

/-- Where a thread is in a call on the dispatcher. -/
inductive DispatcherPlace (Handler : Type) where
  | rest
  | subscribing (topic : String) (handler : Handler)
  | drawn (id : SubscriptionId) (topic : String) (handler : Handler)
  | routed (id : SubscriptionId) (topic : String)
  | subscribed (id : SubscriptionId)
  | unsubscribing (id : SubscriptionId)
  | removing (id : SubscriptionId) (topic : String)
  | unsubscribed (answer : Bool)
  | emitting (topic : String)
  | invoking (registrations : List (Registration Handler))

namespace DispatcherPlace

variable {Handler : Type}

/-- The id that the thread at this place will carry on. -/
def carries : DispatcherPlace Handler → Option SubscriptionId
  | drawn id _ _ => some id
  | routed id _ => some id
  | removing id _ => some id
  | _ => none

/-- The stage of that id. -/
def Fits (stage : SubscriptionId → IdStage Handler) : DispatcherPlace Handler → Prop
  | drawn id _ _ => stage id = .drawn
  | routed id topic => ∃ handler, stage id = .routed topic handler
  | removing id topic => ∃ handler, stage id = .removing topic handler
  | _ => True

theorem Fits.transient {stage : SubscriptionId → IdStage Handler} {place : DispatcherPlace Handler}
    (h : place.Fits stage) {id : SubscriptionId} (hCarries : place.carries = some id) :
    (stage id).transient = true := by
  cases place with
  | drawn other topic handler =>
      obtain rfl := Option.some.inj hCarries
      rw [show stage other = .drawn from h]
      rfl
  | routed other topic =>
      obtain rfl := Option.some.inj hCarries
      obtain ⟨handler, hStage⟩ := h
      rw [hStage]
      rfl
  | removing other topic =>
      obtain rfl := Option.some.inj hCarries
      obtain ⟨handler, hStage⟩ := h
      rw [hStage]
      rfl
  | _ => cases hCarries

theorem Fits.congr {stage stage' : SubscriptionId → IdStage Handler} {place : DispatcherPlace Handler}
    (h : place.Fits stage) (hSame : ∀ id, place.carries = some id → stage' id = stage id) :
    place.Fits stage' := by
  cases place with
  | drawn id topic handler => exact (hSame id rfl).trans h
  | routed id topic => exact h.imp fun _ hStage => (hSame id rfl).trans hStage
  | removing id topic => exact h.imp fun _ hStage => (hSame id rfl).trans hStage
  | _ => trivial

end DispatcherPlace

/-- The places of the calls. -/
def dispatcherProtocol (Handler : Type) [DecidableEq Handler] : Protocol (DispatcherSig Handler) where
  Position := DispatcherPlace Handler
  rest := .rest
  next place o a := match place, o, a with
    | .subscribing topic handler, .drawId, id => some (.drawn id topic handler)
    | .drawn id topic handler, .insertRoute topic' id' handler', _ =>
      if id' = id ∧ topic' = topic ∧ handler' = handler then some (.routed id topic) else none
    | .routed id topic, .insertIndex id' topic', _ =>
      if id' = id ∧ topic' = topic then some (.subscribed id) else none
    | .unsubscribing id, .removeIndex id', found =>
      if id' = id then some (match found with
        | none => .unsubscribed false
        | some topic => .removing id topic) else none
    | .removing id topic, .removeRoute topic' id', answer =>
      if id' = id ∧ topic' = topic then some (.unsubscribed answer) else none
    | .emitting topic, .lookup topic', registrations =>
      if topic' = topic then some (.invoking registrations) else none
    | .invoking (registration :: rest), .invoke registration', _ =>
      if registration' = registration then some (.invoking rest) else none
    | _, _, _ => none

section Placement

variable {Handler Thread : Type} {stage : SubscriptionId → IdStage Handler}
  {pos : Thread → DispatcherPlace Handler}

/-- The threads and the ids they carry on. -/
structure Placement (stage : SubscriptionId → IdStage Handler)
    (pos : Thread → DispatcherPlace Handler) : Prop where
  fits : ∀ t, (pos t).Fits stage
  carried : ∀ id, (stage id).transient = true → ∃ t, (pos t).carries = some id
  alone : ∀ t u id, (pos t).carries = some id → (pos u).carries = some id → t = u

theorem Placement.at_place (h : Placement stage pos) {t : Thread} {place : DispatcherPlace Handler}
    (hAt : pos t = place) : place.Fits stage := hAt ▸ h.fits t

variable [DecidableEq Thread]

/-- A step of a thread that carries no id, before or after. -/
theorem Placement.idle (h : Placement stage pos) {t : Thread} {place : DispatcherPlace Handler}
    (hBefore : (pos t).carries = none) (hAfter : place.carries = none) :
    Placement stage (Function.update pos t place) := by
  have hSame : ∀ u, (Function.update pos t place u).carries = (pos u).carries := by
    intro u
    rcases eq_or_ne u t with rfl | hne
    · rw [Function.update_self, hAfter, hBefore]
    · rw [Function.update_of_ne hne]
  refine ⟨fun u => ?_, fun id hTransient => ?_, fun u v id hU hV => ?_⟩
  · rcases eq_or_ne u t with rfl | hne
    · rw [Function.update_self]
      cases place <;> trivial
    · rw [Function.update_of_ne hne]
      exact h.fits u
  · obtain ⟨u, hU⟩ := h.carried id hTransient
    exact ⟨u, by rw [hSame, hU]⟩
  · rw [hSame] at hU hV
    exact h.alone u v id hU hV

/-- A step of a thread that moves one id on. -/
theorem Placement.move (h : Placement stage pos) {t : Thread} {id : SubscriptionId}
    {next : IdStage Handler} {place : DispatcherPlace Handler}
    (hFree : ∀ u, (pos u).carries = some id → u = t)
    (hBefore : ∀ other, (pos t).carries = some other → other = id)
    (hAfter : place.carries = if next.transient then some id else none)
    (hFits : place.Fits (Function.update stage id next)) :
    Placement (Function.update stage id next) (Function.update pos t place) := by
  have hOthers : ∀ u, u ≠ t → (pos u).carries ≠ some id := fun u hne hU => hne (hFree u hU)
  have hMine : ∀ other, place.carries = some other → other = id := by
    intro other hOther
    rw [hAfter] at hOther
    split_ifs at hOther
    exact (Option.some.inj hOther).symm
  refine ⟨fun u => ?_, fun other hTransient => ?_, fun u v other hU hV => ?_⟩
  · rcases eq_or_ne u t with rfl | hne
    · rwa [Function.update_self]
    · rw [Function.update_of_ne hne]
      refine (h.fits u).congr fun other hCarries => Function.update_of_ne ?_ _ _
      rintro rfl
      exact hOthers u hne hCarries
  · rcases eq_or_ne other id with rfl | hne
    · rw [Function.update_self] at hTransient
      exact ⟨t, by rw [Function.update_self, hAfter, if_pos hTransient]⟩
    · rw [Function.update_of_ne hne] at hTransient
      obtain ⟨u, hU⟩ := h.carried other hTransient
      have hUt : u ≠ t := by
        rintro rfl
        exact hne (hBefore other hU)
      exact ⟨u, by rwa [Function.update_of_ne hUt]⟩
  · rcases eq_or_ne u t with rfl | hU'
    · rw [Function.update_self] at hU
      obtain rfl := hMine other hU
      by_contra hne
      rw [Function.update_of_ne (Ne.symm hne)] at hV
      exact hOthers v (Ne.symm hne) hV
    · rw [Function.update_of_ne hU'] at hU
      rcases eq_or_ne v t with rfl | hV'
      · rw [Function.update_self] at hV
        obtain rfl := hMine other hV
        exact absurd hU (hOthers u hU')
      · rw [Function.update_of_ne hV'] at hV
        exact h.alone u v other hU hV

end Placement

section Maps

variable {Handler : Type} {stage : SubscriptionId → IdStage Handler} {d : Dispatcher Handler}
  {id : SubscriptionId} {topic : String} {handler : Handler}

/-- What the two maps hold. -/
structure Maps (stage : SubscriptionId → IdStage Handler) (d : Dispatcher Handler) : Prop where
  tidy : d.Tidy
  nodup : ∀ topic, ((d.lookup topic).map Prod.fst).Nodup
  routes : ∀ topic id handler,
    (id, handler) ∈ d.lookup topic ↔ (stage id).InRoutes topic handler
  index : ∀ id topic, d.byId id = some topic ↔ ∃ handler, stage id = .live topic handler

theorem maps_new : Maps (fun _ => .unissued) (.new : Dispatcher Handler) where
  tidy := Dispatcher.tidy_new
  nodup _ := List.nodup_nil
  routes _ _ _ := by simp [IdStage.InRoutes]
  index _ _ := by simp

namespace Maps

theorem mem_ids (h : Maps stage d) :
    id ∈ (d.lookup topic).map Prod.fst ↔ ∃ handler, (stage id).InRoutes topic handler := by
  simp [h.routes]

theorem drawn (h : Maps stage d) (hAt : stage id = .unissued) :
    Maps (Function.update stage id .drawn) d.drawId.2 := by
  refine ⟨h.tidy, h.nodup, fun topic other handler => ?_, fun other topic => ?_⟩
  · rw [Dispatcher.lookup_drawId, h.routes]
    rcases eq_or_ne other id with rfl | hne
    · simp [hAt, IdStage.InRoutes]
    · rw [Function.update_of_ne hne]
  · rw [Dispatcher.byId_drawId, h.index]
    rcases eq_or_ne other id with rfl | hne
    · simp [hAt]
    · rw [Function.update_of_ne hne]

theorem routed (h : Maps stage d) (hAt : stage id = .drawn) :
    Maps (Function.update stage id (.routed topic handler)) (d.insertRoute topic id handler) := by
  refine ⟨Dispatcher.tidy_insertRoute h.tidy, fun other => ?_, fun other other' handler' => ?_,
    fun other topic' => ?_⟩
  · rw [Dispatcher.lookup_insertRoute]
    rcases eq_or_ne other topic with rfl | hne
    · have hNew : id ∉ (d.lookup other).map Prod.fst := by simp [h.mem_ids, hAt, IdStage.InRoutes]
      rw [Function.update_self, List.map_append, List.nodup_append]
      refine ⟨h.nodup other, by simp, ?_⟩
      rintro a hMem b hB rfl
      obtain rfl : a = id := by simpa using hB
      exact hNew hMem
    · rw [Function.update_of_ne hne]
      exact h.nodup other
  · rw [Dispatcher.lookup_insertRoute]
    rcases eq_or_ne other' id with rfl | hId
    · rw [Function.update_self]
      rcases eq_or_ne other topic with rfl | hne
      · simp [h.routes, hAt, IdStage.InRoutes, eq_comm]
      · simp [hne, hne.symm, h.routes, hAt, IdStage.InRoutes]
    · rw [Function.update_of_ne hId, ← h.routes]
      rcases eq_or_ne other topic with rfl | hne
      · simp [hId]
      · rw [Function.update_of_ne hne]
  · rw [Dispatcher.byId_insertRoute, h.index]
    rcases eq_or_ne other id with rfl | hne
    · simp [hAt]
    · rw [Function.update_of_ne hne]

theorem indexed (h : Maps stage d) (hAt : stage id = .routed topic handler) :
    Maps (Function.update stage id (.live topic handler)) (d.insertIndex id topic) := by
  refine ⟨h.tidy, h.nodup, fun topic' other handler' => ?_, fun other topic' => ?_⟩
  · rw [Dispatcher.lookup_insertIndex, h.routes]
    rcases eq_or_ne other id with rfl | hne
    · simp [hAt, IdStage.InRoutes]
    · rw [Function.update_of_ne hne]
  · rw [Dispatcher.byId_insertIndex]
    rcases eq_or_ne other id with rfl | hne
    · simp
    · rw [Function.update_of_ne hne, Function.update_of_ne hne, h.index]

theorem unindexed (h : Maps stage d) (hAt : stage id = .live topic handler) :
    Maps (Function.update stage id (.removing topic handler)) (d.removeIndex id).2 := by
  refine ⟨h.tidy, h.nodup, fun topic' other handler' => ?_, fun other topic' => ?_⟩
  · rw [Dispatcher.lookup_removeIndex, h.routes]
    rcases eq_or_ne other id with rfl | hne
    · simp [hAt, IdStage.InRoutes]
    · rw [Function.update_of_ne hne]
  · rw [Dispatcher.byId_removeIndex]
    rcases eq_or_ne other id with rfl | hne
    · simp
    · rw [Function.update_of_ne hne, Function.update_of_ne hne, h.index]

/-- Removing what the index does not have. -/
theorem missing (h : Maps stage d) (hNone : d.byId id = none) : Maps stage (d.removeIndex id).2 := by
  refine ⟨h.tidy, h.nodup, h.routes, fun other topic' => ?_⟩
  rw [Dispatcher.byId_removeIndex, ← hNone, Function.update_eq_self, h.index]

theorem unrouted (h : Maps stage d) (hAt : stage id = .removing topic handler) :
    (d.removeRoute topic id).1 = true ∧
      Maps (Function.update stage id .gone) (d.removeRoute topic id).2 := by
  refine ⟨?_, Dispatcher.tidy_removeRoute h.tidy, fun other => ?_, fun other other' handler' => ?_,
    fun other topic' => ?_⟩
  · rw [Dispatcher.removeRoute_fst, h.mem_ids, hAt]
    exact ⟨handler, rfl, rfl⟩
  · rw [Dispatcher.lookup_removeRoute (h.nodup topic)]
    rcases eq_or_ne other topic with rfl | hne
    · rw [Function.update_self]
      exact (h.nodup other).sublist (List.filter_sublist.map _)
    · rw [Function.update_of_ne hne]
      exact h.nodup other
  · rw [Dispatcher.lookup_removeRoute (h.nodup topic)]
    rcases eq_or_ne other' id with rfl | hId
    · rw [Function.update_self]
      rcases eq_or_ne other topic with rfl | hne
      · simp [IdStage.InRoutes]
      · simp [hne, hne.symm, h.routes, hAt, IdStage.InRoutes]
    · rw [Function.update_of_ne hId, ← h.routes]
      rcases eq_or_ne other topic with rfl | hne
      · simp [hId]
      · rw [Function.update_of_ne hne]
  · rw [Dispatcher.byId_removeRoute, h.index]
    rcases eq_or_ne other id with rfl | hne
    · simp [hAt]
    · rw [Function.update_of_ne hne]

end Maps

end Maps

section Ledger

variable {Handler Thread : Type} {stage : SubscriptionId → IdStage Handler}
  {deeds : List (Thread × Deed (DispatcherSig Handler))} {d : Deed (DispatcherSig Handler)} {t : Thread}
  {id : SubscriptionId}

/-- The operation that takes an id to its next stage, by the rank of that stage. -/
def milestone (d : Deed (DispatcherSig Handler)) : Option (SubscriptionId × Nat) :=
  match d with
  | ⟨.drawId, id⟩ => some (id, 1)
  | ⟨.insertRoute _ id _, _⟩ => some (id, 2)
  | ⟨.insertIndex id _, _⟩ => some (id, 3)
  | ⟨.removeIndex id, some _⟩ => some (id, 4)
  | ⟨.removeRoute _ id, true⟩ => some (id, 5)
  | _ => none

theorem milestone_three (h : milestone d = some (id, 3)) :
    ∃ topic, d = ⟨.insertIndex id topic, ()⟩ := by
  obtain ⟨o, a⟩ := d
  cases o with
  | insertIndex other topic =>
      cases h
      exact ⟨topic, rfl⟩
  | removeIndex other => cases a <;> cases h
  | removeRoute topic other => cases a <;> cases h
  | _ => cases h

theorem milestone_four (h : milestone d = some (id, 4)) :
    ∃ topic, d = ⟨.removeIndex id, some topic⟩ := by
  obtain ⟨o, a⟩ := d
  cases o with
  | removeIndex other =>
      cases a with
      | none => cases h
      | some topic =>
          cases h
          exact ⟨topic, rfl⟩
  | removeRoute topic other => cases a <;> cases h
  | _ => cases h

def isDraw (d : Deed (DispatcherSig Handler)) : Bool :=
  match d with
  | ⟨.drawId, _⟩ => true
  | _ => false

/-- The number of subscriptions made so far. -/
def draws (deeds : List (Thread × Deed (DispatcherSig Handler))) : Nat :=
  deeds.countP fun d => isDraw d.2

/-- How often an id has passed a stage. -/
def passed (deeds : List (Thread × Deed (DispatcherSig Handler))) (id : SubscriptionId) (k : Nat) :
    Nat := deeds.countP fun d => milestone d.2 = some (id, k)

/-- The operations so far and the stages they led to. -/
structure IdLedger (stage : SubscriptionId → IdStage Handler)
    (deeds : List (Thread × Deed (DispatcherSig Handler))) : Prop where
  passed : ∀ id k, passed deeds id k = if 1 ≤ k ∧ k ≤ (stage id).rank then 1 else 0
  issued : ∀ id, 1 ≤ (stage id).rank ↔ id.toNat < draws deeds
  entered : ∀ t topic id handler, (t, ⟨.insertRoute topic id handler, ()⟩) ∈ deeds →
    (stage id).InRoutes topic handler ∨ stage id = .gone

theorem isDraw_of_milestone (h : milestone d = none) : isDraw d = false := by
  obtain ⟨o, a⟩ := d
  cases o with
  | drawId => cases h
  | _ => rfl

theorem ledger_nil : IdLedger (fun _ => .unissued) ([] : List (Thread × Deed (DispatcherSig Handler))) where
  passed id k := by
    have hRank : ¬ (1 ≤ k ∧ k ≤ (IdStage.unissued : IdStage Handler).rank) := by
      simp only [IdStage.rank]
      omega
    rw [if_neg hRank]
    rfl
  issued id := by simp [IdStage.rank, draws]
  entered t topic id handler hMem := by cases hMem

namespace IdLedger

/-- An operation that moves no id. -/
theorem stay (h : IdLedger stage deeds) (hNone : milestone d = none) : IdLedger stage (deeds ++ [(t, d)]) := by
  refine ⟨fun id k => ?_, fun id => ?_, fun u topic id handler hMem => ?_⟩
  · rw [ServiceKernel.passed, List.countP_append, ← ServiceKernel.passed, h.passed]
    simp [hNone]
  · rw [h.issued, draws, draws, List.countP_append]
    simp [isDraw_of_milestone hNone]
  · rcases List.mem_append.mp hMem with hOld | hNew
    · exact h.entered u topic id handler hOld
    · obtain ⟨-, rfl⟩ := Prod.mk.inj (List.mem_singleton.mp hNew)
      cases hNone

/-- An operation that takes one id to its next stage. -/
theorem move (h : IdLedger stage deeds) {next : IdStage Handler} (hMilestone : milestone d = some (id, next.rank))
    (hRank : next.rank = (stage id).rank + 1)
    (hIssued : ∀ other, 1 ≤ (Function.update stage id next other).rank ↔
      other.toNat < draws (deeds ++ [(t, d)]))
    (hStays : ∀ topic handler, (stage id).InRoutes topic handler →
      next.InRoutes topic handler ∨ next = .gone)
    (hEnters : ∀ topic other handler, d = ⟨.insertRoute topic other handler, ()⟩ →
      other = id ∧ next.InRoutes topic handler) :
    IdLedger (Function.update stage id next) (deeds ++ [(t, d)]) := by
  refine ⟨fun other k => ?_, hIssued, fun u topic other handler hMem => ?_⟩
  · rw [ServiceKernel.passed, List.countP_append, ← ServiceKernel.passed, h.passed]
    simp only [List.countP_singleton, hMilestone, Option.some.injEq, Prod.mk.injEq]
    rcases eq_or_ne other id with rfl | hne
    · rw [Function.update_self, hRank]
      by_cases hK : k = (stage other).rank + 1
      · simp [hK]
      · have hLe : k ≤ (stage other).rank + 1 ↔ k ≤ (stage other).rank := by omega
        simp [hLe, Ne.symm hK]
    · simp [hne, hne.symm]
  · rcases List.mem_append.mp hMem with hOld | hNew
    · rcases eq_or_ne other id with rfl | hne
      · rw [Function.update_self]
        rcases h.entered u topic other handler hOld with hIn | hGone
        · exact hStays topic handler hIn
        · have hLast := next.rank_le
          rw [hRank, hGone] at hLast
          exact absurd hLast (Nat.not_succ_le_self 5)
      · rw [Function.update_of_ne hne]
        exact h.entered u topic other handler hOld
    · obtain ⟨-, hDeed⟩ := Prod.mk.inj (List.mem_singleton.mp hNew)
      obtain ⟨rfl, hIn⟩ := hEnters topic other handler hDeed.symm
      rw [Function.update_self]
      exact Or.inl hIn

/-- Which ids are issued, after an operation that draws none. -/
theorem issued_later (h : IdLedger stage deeds) {next : IdStage Handler} (hDraw : isDraw d = false)
    (hAt : 1 ≤ (stage id).rank) (hNext : 1 ≤ next.rank) (other : SubscriptionId) :
    1 ≤ (Function.update stage id next other).rank ↔ other.toNat < draws (deeds ++ [(t, d)]) := by
  have hSame : draws (deeds ++ [(t, d)]) = draws deeds := by simp [draws, hDraw]
  rw [hSame, ← h.issued]
  rcases eq_or_ne other id with rfl | hne
  · rw [Function.update_self]
    exact iff_of_true hNext hAt
  · rw [Function.update_of_ne hne]

theorem rank_of_mem (h : IdLedger stage deeds) {k : Nat} (hMem : (t, d) ∈ deeds)
    (hMilestone : milestone d = some (id, k)) : k ≤ (stage id).rank := by
  have hPos : 0 < ServiceKernel.passed deeds id k :=
    List.countP_pos_iff.mpr ⟨(t, d), hMem, by simpa using hMilestone⟩
  rw [h.passed] at hPos
  split_ifs at hPos with hRank
  · exact hRank.2
  · exact absurd hPos (Nat.lt_irrefl 0)

theorem mem_of_rank (h : IdLedger stage deeds) {k : Nat} (hPos : 1 ≤ k) (hRank : k ≤ (stage id).rank) :
    ∃ d ∈ deeds, milestone d.2 = some (id, k) := by
  have hOnce : ServiceKernel.passed deeds id k = 1 := by rw [h.passed, if_pos ⟨hPos, hRank⟩]
  obtain ⟨d, hMem, hMilestone⟩ := List.countP_pos_iff.mp (hOnce ▸ Nat.one_pos)
  exact ⟨d, hMem, by simpa using hMilestone⟩

end IdLedger

end Ledger

section System

variable {Thread Handler : Type}

abbrev DispatcherWorld (Thread Handler : Type) :=
  World Thread (Dispatcher Handler) (Deed (DispatcherSig Handler))

/-- The maps, the threads and the history agree on the stages of the ids. -/
structure Books (stage : SubscriptionId → IdStage Handler) (pos : Thread → DispatcherPlace Handler)
    (w : DispatcherWorld Thread Handler) : Prop where
  placement : Placement stage pos
  maps : Maps stage w.shared
  ledger : IdLedger stage w.trace

/-- The counter is where the draws have moved it, and as long as it has not come round
there are stages that explain everything. -/
structure InStages (pos : Thread → DispatcherPlace Handler) (w : DispatcherWorld Thread Handler) :
    Prop where
  counter : w.shared.nextId = UInt64.ofNat (draws w.trace)
  books : draws w.trace ≤ 2 ^ 64 → ∃ stage, Books stage pos w

variable {pos : Thread → DispatcherPlace Handler} {w : DispatcherWorld Thread Handler} {t : Thread}
  {place : DispatcherPlace Handler}

theorem inStages_new : InStages (fun _ : Thread => DispatcherPlace.rest)
    (⟨.new, []⟩ : DispatcherWorld Thread Handler) where
  counter := rfl
  books _ := ⟨fun _ => .unissued, ⟨fun _ => trivial, fun _ h => by simp [IdStage.transient] at h,
    fun _ _ _ h => by cases h⟩, maps_new, ledger_nil⟩

variable [DecidableEq Thread]

/-- A thread that carries no id begins or ends a call. -/
theorem InStages.idle (h : InStages pos w) (hBefore : (pos t).carries = none)
    (hAfter : place.carries = none) : InStages (Function.update pos t place) w :=
  ⟨h.counter, fun hRoom =>
    let ⟨stage, hBooks⟩ := h.books hRoom
    ⟨stage, hBooks.placement.idle hBefore hAfter, hBooks.maps, hBooks.ledger⟩⟩

variable [DecidableEq Handler]

/-- An operation that draws no id. -/
theorem InStages.onward (h : InStages pos w) {o : (DispatcherSig Handler).Op}
    {a : (DispatcherSig Handler).Ans o} {d : Dispatcher Handler} (hDraw : isDraw ⟨o, a⟩ = false)
    (hNext : d.nextId = w.shared.nextId)
    (hBooks : ∀ stage, Books stage pos w → ∃ stage', Books stage' (Function.update pos t place)
      ((dispatcherMachine Thread Handler).after w t o a d)) :
    InStages (Function.update pos t place)
      ((dispatcherMachine Thread Handler).after w t o a d) := by
  have hDraws : draws ((dispatcherMachine Thread Handler).after w t o a d).trace = draws w.trace := by
    simp [draws, dispatcherMachine, hDraw]
  refine ⟨?_, fun hRoom => ?_⟩
  · rw [hDraws, ← h.counter]
    exact hNext
  · rw [hDraws] at hRoom
    obtain ⟨stage, hStage⟩ := h.books hRoom
    exact hBooks stage hStage

/-- An operation that changes no stage, by a thread that carries no id. -/
theorem Books.stay {stage : SubscriptionId → IdStage Handler} (h : Books stage pos w)
    {o : (DispatcherSig Handler).Op} {a : (DispatcherSig Handler).Ans o} {d : Dispatcher Handler}
    (hBefore : (pos t).carries = none) (hAfter : place.carries = none)
    (hNone : milestone ⟨o, a⟩ = none) (hMaps : Maps stage d) :
    Books stage (Function.update pos t place)
      ((dispatcherMachine Thread Handler).after w t o a d) :=
  ⟨h.placement.idle hBefore hAfter, hMaps, h.ledger.stay hNone⟩

/-- What a call may perform at a place. -/
inductive Permitted : DispatcherPlace Handler → DispatcherOp Handler → Prop where
  | draw (topic : String) (handler : Handler) : Permitted (.subscribing topic handler) .drawId
  | route (id : SubscriptionId) (topic : String) (handler : Handler) :
      Permitted (.drawn id topic handler) (.insertRoute topic id handler)
  | index (id : SubscriptionId) (topic : String) :
      Permitted (.routed id topic) (.insertIndex id topic)
  | unindex (id : SubscriptionId) : Permitted (.unsubscribing id) (.removeIndex id)
  | unroute (id : SubscriptionId) (topic : String) :
      Permitted (.removing id topic) (.removeRoute topic id)
  | look (topic : String) : Permitted (.emitting topic) (.lookup topic)
  | invoke (registration : Registration Handler) (rest : List (Registration Handler)) :
      Permitted (.invoking (registration :: rest)) (.invoke registration)

theorem permitted {o : DispatcherOp Handler}
    (h : (dispatcherProtocol Handler).Permits place o) : Permitted place o := by
  obtain ⟨a, hSome⟩ := h
  cases place with
  | subscribing topic handler =>
      cases o <;> simp [dispatcherProtocol] at hSome
      exact .draw topic handler
  | drawn id topic handler =>
      cases o <;> simp [dispatcherProtocol] at hSome
      obtain ⟨rfl, rfl, rfl⟩ := hSome
      exact .route _ _ _
  | routed id topic =>
      cases o <;> simp [dispatcherProtocol] at hSome
      obtain ⟨rfl, rfl⟩ := hSome
      exact .index _ _
  | unsubscribing id =>
      cases o <;> simp [dispatcherProtocol] at hSome
      obtain rfl := hSome
      exact .unindex _
  | removing id topic =>
      cases o <;> simp [dispatcherProtocol] at hSome
      obtain ⟨rfl, rfl⟩ := hSome
      exact .unroute _ _
  | emitting topic =>
      cases o <;> simp [dispatcherProtocol] at hSome
      obtain rfl := hSome
      exact .look _
  | invoking registrations =>
      cases registrations with
      | nil => cases o <;> simp [dispatcherProtocol] at hSome
      | cons registration rest =>
          cases o <;> simp [dispatcherProtocol] at hSome
          obtain rfl := hSome
          exact .invoke _ _
  | _ => cases o <;> simp [dispatcherProtocol] at hSome

section Progress

variable {stage : SubscriptionId → IdStage Handler} {id : SubscriptionId} {topic : String}
  {handler : Handler}

theorem Books.draw (h : Books stage pos w) (hCounter : w.shared.nextId = UInt64.ofNat (draws w.trace))
    (hRoom : draws w.trace < 2 ^ 64) (hAt : pos t = .subscribing topic handler) :
    Books (Function.update stage w.shared.nextId .drawn)
      (Function.update pos t (.drawn w.shared.nextId topic handler))
      ((dispatcherMachine Thread Handler).after w t .drawId w.shared.nextId w.shared.drawId.2) := by
  have hNat : w.shared.nextId.toNat = draws w.trace := by
    rw [hCounter, UInt64.toNat_ofNat']
    exact Nat.mod_eq_of_lt hRoom
  have hFresh : stage w.shared.nextId = .unissued := by
    have hNot : ¬ 1 ≤ (stage w.shared.nextId).rank := by
      rw [h.ledger.issued, hNat]
      exact Nat.lt_irrefl _
    cases hStage : stage w.shared.nextId <;> simp [hStage, IdStage.rank] at hNot ⊢
  refine ⟨h.placement.move ?_ ?_ rfl (Function.update_self ..), h.maps.drawn hFresh, ?_⟩
  · intro u hU
    have hBusy := (h.placement.fits u).transient hU
    rw [hFresh] at hBusy
    cases hBusy
  · intro other hOther
    rw [hAt] at hOther
    cases hOther
  · refine h.ledger.move rfl (by rw [hFresh]; rfl) (fun other => ?_) ?_ ?_
    · have hMore : draws (w.trace ++ [(t, ⟨.drawId, w.shared.nextId⟩)]) = draws w.trace + 1 := by
        simp [draws, isDraw]
      change _ ↔ other.toNat < draws (w.trace ++ [(t, ⟨.drawId, w.shared.nextId⟩)])
      rw [hMore]
      rcases eq_or_ne other w.shared.nextId with rfl | hne
      · rw [Function.update_self, hNat]
        exact iff_of_true (Nat.le_refl 1) (Nat.lt_succ_self _)
      · have hApart : other.toNat ≠ draws w.trace := fun hSame =>
          hne (UInt64.toNat_inj.mp (hSame.trans hNat.symm))
        rw [Function.update_of_ne hne, h.ledger.issued]
        omega
    · intro topic handler hIn
      rw [hFresh] at hIn
      cases hIn
    · intro topic other handler hSame
      cases hSame

/-- An operation that takes an issued id onward, by a thread that is the only one to carry
it or that takes it up. -/
theorem Books.onward (h : Books stage pos w) {next : IdStage Handler} {o : (DispatcherSig Handler).Op}
    {a : (DispatcherSig Handler).Ans o} {d : Dispatcher Handler}
    (hFree : ∀ u, (pos u).carries = some id → u = t)
    (hBefore : ∀ other, (pos t).carries = some other → other = id)
    (hAfter : place.carries = if next.transient then some id else none)
    (hFits : place.Fits (Function.update stage id next)) (hMaps : Maps (Function.update stage id next) d)
    (hMilestone : milestone ⟨o, a⟩ = some (id, next.rank)) (hRank : next.rank = (stage id).rank + 1)
    (hIssued : 1 ≤ (stage id).rank)
    (hStays : ∀ topic handler, (stage id).InRoutes topic handler →
      next.InRoutes topic handler ∨ next = .gone)
    (hEnters : ∀ topic other handler, (⟨o, a⟩ : Deed (DispatcherSig Handler)) =
      ⟨.insertRoute topic other handler, ()⟩ → next.InRoutes topic handler) :
    Books (Function.update stage id next) (Function.update pos t place)
      ((dispatcherMachine Thread Handler).after w t o a d) := by
  have hDraw : isDraw (⟨o, a⟩ : Deed (DispatcherSig Handler)) = false := by
    cases o with
    | drawId =>
        have hFirst : 1 = next.rank := (Prod.mk.inj (Option.some.inj hMilestone)).2
        omega
    | _ => rfl
  refine ⟨h.placement.move hFree hBefore hAfter hFits, hMaps, ?_⟩
  apply h.ledger.move hMilestone hRank (h.ledger.issued_later hDraw hIssued (by omega)) hStays
  intro topic other handler hSame
  refine ⟨?_, hEnters topic other handler hSame⟩
  rw [show (⟨o, a⟩ : Deed (DispatcherSig Handler)) = _ from hSame] at hMilestone
  exact congrArg Prod.fst (Option.some.inj hMilestone)

theorem Books.route (h : Books stage pos w) (hAt : pos t = .drawn id topic handler) :
    Books (Function.update stage id (.routed topic handler))
      (Function.update pos t (.routed id topic))
      ((dispatcherMachine Thread Handler).after w t (.insertRoute topic id handler) ()
        (w.shared.insertRoute topic id handler)) := by
  have hStage : stage id = .drawn := h.placement.at_place hAt
  have hMine : (pos t).carries = some id := by rw [hAt]; rfl
  refine h.onward (fun u hU => h.placement.alone u t id hU hMine)
    (fun other hOther => by simpa [hMine] using hOther.symm) rfl ⟨handler, Function.update_self ..⟩
    (h.maps.routed hStage) rfl (by rw [hStage]; rfl) (by simp [hStage, IdStage.rank]) ?_ ?_
  · intro topic handler hIn
    rw [hStage] at hIn
    cases hIn
  · intro topic other handler hSame
    cases hSame
    exact ⟨rfl, rfl⟩

theorem Books.index (h : Books stage pos w) (hAt : pos t = .routed id topic) :
    ∃ stage', Books stage' (Function.update pos t (.subscribed id))
      ((dispatcherMachine Thread Handler).after w t (.insertIndex id topic) ()
        (w.shared.insertIndex id topic)) := by
  obtain ⟨handler, hStage⟩ : ∃ handler, stage id = .routed topic handler :=
    h.placement.at_place hAt
  have hMine : (pos t).carries = some id := by rw [hAt]; rfl
  refine ⟨_, h.onward (fun u hU => h.placement.alone u t id hU hMine)
    (fun other hOther => by simpa [hMine] using hOther.symm) rfl trivial
    (h.maps.indexed hStage) rfl (by rw [hStage]; rfl) (by simp [hStage, IdStage.rank]) ?_ ?_⟩
  · intro topic handler hIn
    rw [hStage] at hIn
    exact Or.inl hIn
  · intro topic other handler hSame
    cases hSame

/-- Whoever removes an id from the index takes it up. -/
theorem Books.unindex (h : Books stage pos w) (hAt : pos t = .unsubscribing id)
    (hFound : w.shared.byId id = some topic) :
    ∃ stage', Books stage' (Function.update pos t (.removing id topic))
      ((dispatcherMachine Thread Handler).after w t (.removeIndex id) (some topic)
        (w.shared.removeIndex id).2) := by
  obtain ⟨handler, hStage⟩ := (h.maps.index id topic).mp hFound
  refine ⟨_, h.onward (fun u hU => ?_) (fun other hOther => ?_) rfl
    ⟨handler, Function.update_self ..⟩ (h.maps.unindexed hStage) rfl (by rw [hStage]; rfl)
    (by simp [hStage, IdStage.rank]) ?_ ?_⟩
  · have hBusy := (h.placement.fits u).transient hU
    rw [hStage] at hBusy
    cases hBusy
  · rw [hAt] at hOther
    cases hOther
  · intro topic handler hIn
    rw [hStage] at hIn
    exact Or.inl hIn
  · intro topic other handler hSame
    cases hSame

/-- Whoever removed an id from the index finds it in the routes. -/
theorem Books.unroute (h : Books stage pos w) (hAt : pos t = .removing id topic) :
    (w.shared.removeRoute topic id).1 = true ∧
      ∃ stage', Books stage' (Function.update pos t (.unsubscribed true))
        ((dispatcherMachine Thread Handler).after w t (.removeRoute topic id) true
          (w.shared.removeRoute topic id).2) := by
  obtain ⟨handler, hStage⟩ : ∃ handler, stage id = .removing topic handler :=
    h.placement.at_place hAt
  have hMine : (pos t).carries = some id := by rw [hAt]; rfl
  obtain ⟨hTrue, hMaps⟩ := h.maps.unrouted hStage
  refine ⟨hTrue, _, h.onward (fun u hU => h.placement.alone u t id hU hMine)
    (fun other hOther => by simpa [hMine] using hOther.symm) rfl trivial hMaps rfl
    (by rw [hStage]; rfl) (by simp [hStage, IdStage.rank]) ?_ ?_⟩
  · exact fun topic handler _ => Or.inr rfl
  · intro topic other handler hSame
    cases hSame

end Progress

/-- Every step of a call is answered as its place expects, and keeps the stages. -/
theorem InStages.step (h : InStages pos w) {o : DispatcherOp Handler}
    {a : (DispatcherSig Handler).Ans o} {d : Dispatcher Handler} (hPermitted : Permitted (pos t) o)
    (hExec : (dispatcherMachine Thread Handler).exec t o a w.shared = some d) :
    ∃ place, (dispatcherProtocol Handler).next (pos t) o a = some place ∧
      InStages (Function.update pos t place) ((dispatcherMachine Thread Handler).after w t o a d) := by
  generalize hAt : pos t = place at hPermitted
  cases hPermitted with
  | draw topic handler =>
      simp only [dispatcherMachine, Option.ite_none_right_eq_some, Option.some.injEq] at hExec
      obtain ⟨rfl, rfl⟩ := hExec
      have hDraws : draws ((dispatcherMachine Thread Handler).after w t .drawId w.shared.nextId
          w.shared.drawId.2).trace = draws w.trace + 1 := by
        simp [draws, dispatcherMachine, isDraw]
      refine ⟨_, rfl, ?_, fun hRoom => ?_⟩
      · rw [Dispatcher.drawId_fst, hDraws, Machine.after_shared, Dispatcher.nextId_drawId, h.counter]
        simp
      · rw [Dispatcher.drawId_fst, hDraws] at hRoom
        obtain ⟨stage, hBooks⟩ := h.books (Nat.le_of_succ_le hRoom)
        exact ⟨_, hBooks.draw h.counter hRoom hAt⟩
  | route id topic handler =>
      obtain rfl := Option.some.inj hExec
      refine ⟨_, if_pos ⟨rfl, rfl, rfl⟩, h.onward rfl rfl fun stage hBooks => ?_⟩
      exact ⟨_, hBooks.route hAt⟩
  | index id topic =>
      obtain rfl := Option.some.inj hExec
      exact ⟨_, if_pos ⟨rfl, rfl⟩, h.onward rfl rfl fun stage hBooks => hBooks.index hAt⟩
  | unindex id =>
      simp only [dispatcherMachine, Option.ite_none_right_eq_some, Option.some.injEq] at hExec
      obtain ⟨rfl, rfl⟩ := hExec
      refine ⟨_, if_pos rfl, h.onward rfl rfl fun stage hBooks => ?_⟩
      rw [Dispatcher.removeIndex_fst]
      cases hFound : w.shared.byId id with
      | none => exact ⟨stage, hBooks.stay (by rw [hAt]; rfl) rfl rfl (hBooks.maps.missing hFound)⟩
      | some topic => exact hBooks.unindex hAt hFound
  | unroute id topic =>
      simp only [dispatcherMachine, Option.ite_none_right_eq_some, Option.some.injEq] at hExec
      obtain ⟨rfl, rfl⟩ := hExec
      refine ⟨_, if_pos ⟨rfl, rfl⟩, h.onward rfl Dispatcher.nextId_removeRoute fun stage hBooks => ?_⟩
      obtain ⟨hTrue, hNext⟩ := hBooks.unroute hAt
      rw [hTrue]
      exact hNext
  | look topic =>
      simp only [dispatcherMachine, Option.ite_none_right_eq_some, Option.some.injEq] at hExec
      obtain ⟨rfl, rfl⟩ := hExec
      refine ⟨_, if_pos rfl, h.onward rfl rfl fun stage hBooks => ?_⟩
      exact ⟨stage, hBooks.stay (by rw [hAt]; rfl) rfl rfl hBooks.maps⟩
  | invoke registration rest =>
      obtain rfl := Option.some.inj hExec
      refine ⟨_, if_pos rfl, h.onward rfl rfl fun stage hBooks => ?_⟩
      exact ⟨stage, hBooks.stay (by rw [hAt]; rfl) rfl rfl hBooks.maps⟩

/-- The place at which a call begins. -/
def DispatcherCall.begins : DispatcherCall Handler → DispatcherPlace Handler
  | .subscribe topic handler => .subscribing topic handler
  | .unsubscribe id => .unsubscribing id
  | .emit topic => .emitting topic

omit [DecidableEq Thread] in
theorem invokeAll_follows (registrations : List (Registration Handler)) :
    (dispatcherProtocol Handler).Follows (fun _ place => place.carries = none)
      (DispatcherSteps.invokeAll registrations) (.invoking registrations) := by
  induction registrations with
  | nil => rfl
  | cons registration rest ih =>
      exact Protocol.Follows.step (fun _ => if_pos rfl) fun _ => ih

omit [DecidableEq Thread] in
/-- A call ends where its thread carries no id. -/
theorem body_follows (call : DispatcherCall Handler) : (dispatcherProtocol Handler).Follows
    (fun _ place => place.carries = none) call.body call.begins := by
  cases call with
  | subscribe topic handler =>
      refine ⟨⟨(0 : UInt64), rfl⟩, fun id place hNext => ?_⟩
      obtain rfl := Option.some.inj hNext
      apply Protocol.Follows.step (fun _ => if_pos ⟨rfl, rfl, rfl⟩)
      intro _
      exact Protocol.Follows.step (fun _ => if_pos ⟨rfl, rfl⟩) fun _ => rfl
  | unsubscribe id =>
      refine ⟨⟨none, by simp [dispatcherProtocol, DispatcherCall.begins]⟩, fun found place hNext => ?_⟩
      cases found with
      | none =>
          obtain rfl := Option.some.inj ((if_pos rfl).symm.trans hNext)
          rfl
      | some topic =>
          obtain rfl := Option.some.inj ((if_pos rfl).symm.trans hNext)
          refine ⟨⟨true, by simp [dispatcherProtocol]⟩, fun answer place hEnd => ?_⟩
          obtain rfl := Option.some.inj ((if_pos ⟨rfl, rfl⟩).symm.trans hEnd)
          rfl
  | emit topic =>
      refine ⟨⟨[], by simp [dispatcherProtocol, DispatcherCall.begins]⟩,
        fun registrations place hNext => ?_⟩
      obtain rfl := Option.some.inj ((if_pos rfl).symm.trans hNext)
      exact (invokeAll_follows registrations).bind fun _ _ hEnd => hEnd

/-- The dispatcher and its callers. -/
def dispatcherTypestate (Thread Handler : Type) [DecidableEq Thread] [DecidableEq Handler] :
    Typestate (dispatcherMachine Thread Handler) DispatcherCall.body where
  protocol := dispatcherProtocol Handler
  begins := DispatcherCall.begins
  within _ _ := True
  returns _ _ place := place.carries = none
  inv := InStages
  within_begins _ := trivial
  within_next _ _ _ _ _ _ _ := trivial
  obeys := body_follows
  enters pos w t call h hRest := by
    refine h.idle ?_ ?_
    · rw [hRest]
      rfl
    · cases call <;> rfl
  keeps pos w t o a shared h hPermits hExec := h.step (permitted hPermits) hExec
  leaves pos w t call r h hReturns := h.idle hReturns rfl

end System

end ServiceKernel
