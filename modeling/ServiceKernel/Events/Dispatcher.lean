import Mathlib.Data.List.Basic
import Mathlib.Logic.Function.Basic

/-! The topic-keyed dispatcher. A subscription is entered in two maps, the routes of
its topic and the index by id, each behind its own lock; the small operations
here are the sections under one lock, and the calls are put together from
them. -/
namespace ServiceKernel

/-- The ids are drawn from one counter for all topics. -/
abbrev SubscriptionId := UInt64

/-- What the routes hold of a subscription. -/
abbrev Registration (Handler : Type) := SubscriptionId × Handler

/-- The routing state shared by a dispatcher and its handles. -/
structure Dispatcher (Handler : Type) where
  routes : String → Option (List (Registration Handler))
  byId : SubscriptionId → Option String
  nextId : UInt64

namespace Dispatcher

variable {Handler : Type}

/-- No subscriptions, and the first id not drawn. -/
def new : Dispatcher Handler := ⟨fun _ => none, fun _ => none, 0⟩

/-- `fetch_add`, which wraps. -/
def drawId (d : Dispatcher Handler) : SubscriptionId × Dispatcher Handler :=
  (d.nextId, { d with nextId := d.nextId + 1 })

/-- Under the lock of the routes: the handler is appended to those of its topic. -/
def insertRoute (d : Dispatcher Handler) (topic : String) (id : SubscriptionId)
    (handler : Handler) : Dispatcher Handler :=
  { d with routes :=
      Function.update d.routes topic (some ((d.routes topic).getD [] ++ [(id, handler)])) }

/-- Under the lock of the index. -/
def insertIndex (d : Dispatcher Handler) (id : SubscriptionId) (topic : String) :
    Dispatcher Handler :=
  { d with byId := Function.update d.byId id (some topic) }

/-- Draw an id, enter the routes and then the index. -/
def subscribe (d : Dispatcher Handler) (topic : String) (handler : Handler) :
    SubscriptionId × Dispatcher Handler :=
  let (id, drawn) := d.drawId
  (id, (drawn.insertRoute topic id handler).insertIndex id topic)

/-- Under the lock of the index: take the id out, and say which topic it had. -/
def removeIndex (d : Dispatcher Handler) (id : SubscriptionId) :
    Option String × Dispatcher Handler :=
  (d.byId id, { d with byId := Function.update d.byId id none })

/-- Remove the first registration with this id; a topic without registrations goes. -/
def removeRoute (d : Dispatcher Handler) (topic : String) (id : SubscriptionId) :
    Bool × Dispatcher Handler :=
  match d.routes topic with
  | none => (false, d)
  | some list => match list.findIdx? fun registration => registration.1 == id with
    | none => (false, d)
    | some pos =>
      let rest := list.eraseIdx pos
      let left := if rest.isEmpty then none else some rest
      (true, { d with routes := Function.update d.routes topic left })

/-- An id that the index does not have is unknown; else its registration is removed. -/
def unsubscribe (d : Dispatcher Handler) (id : SubscriptionId) : Bool × Dispatcher Handler :=
  match d.removeIndex id with
  | (none, removed) => (false, removed)
  | (some topic, removed) => removed.removeRoute topic id

/-- How many registrations the routes of a topic hold. -/
def subscriberCount (d : Dispatcher Handler) (topic : String) : Nat :=
  ((d.routes topic).map List.length).getD 0

/-- The routes of a topic as an emit reads them. -/
def lookup (d : Dispatcher Handler) (topic : String) : List (Registration Handler) :=
  match d.routes topic with
  | some list => list
  | none => []

/-- The handlers an emit goes on to invoke. -/
def handlersFor (d : Dispatcher Handler) (topic : String) : List Handler :=
  (d.lookup topic).map Prod.snd

/-- No topic maps to an empty list. -/
def Tidy (d : Dispatcher Handler) : Prop := ∀ topic, d.routes topic ≠ some []

variable {d : Dispatcher Handler} {topic : String} {id : SubscriptionId} {handler : Handler}

/-- The count is that of the handlers an emit would find. -/
theorem subscriberCount_eq : d.subscriberCount topic = (d.lookup topic).length := by
  unfold subscriberCount lookup
  cases d.routes topic <;> rfl

theorem tidy_new : (new : Dispatcher Handler).Tidy := fun topic => by simp [new]

@[simp] theorem lookup_new : (new : Dispatcher Handler).lookup topic = [] := rfl

@[simp] theorem byId_new : (new : Dispatcher Handler).byId id = none := rfl

@[simp] theorem nextId_new : (new : Dispatcher Handler).nextId = 0 := rfl

@[simp] theorem drawId_fst : d.drawId.1 = d.nextId := rfl

@[simp] theorem lookup_drawId : d.drawId.2.lookup topic = d.lookup topic := rfl

@[simp] theorem byId_drawId : d.drawId.2.byId = d.byId := rfl

@[simp] theorem nextId_drawId : d.drawId.2.nextId = d.nextId + 1 := rfl

theorem tidy_drawId (hTidy : d.Tidy) : d.drawId.2.Tidy := hTidy

/-- A new route comes last on its topic, and on no other. -/
@[simp] theorem lookup_insertRoute : (d.insertRoute topic id handler).lookup =
    Function.update d.lookup topic (d.lookup topic ++ [(id, handler)]) := by
  funext other
  unfold lookup insertRoute
  rcases eq_or_ne other topic with rfl | hne
  · cases hRoutes : d.routes other <;> simp
  · simp [hne]

@[simp] theorem byId_insertRoute : (d.insertRoute topic id handler).byId = d.byId := rfl

@[simp] theorem nextId_insertRoute : (d.insertRoute topic id handler).nextId = d.nextId := rfl

/-- A topic that has just been routed is not empty. -/
theorem tidy_insertRoute (hTidy : d.Tidy) : (d.insertRoute topic id handler).Tidy := by
  intro other
  unfold insertRoute
  rcases eq_or_ne other topic with rfl | hne
  · simp
  · simpa [hne] using hTidy other

@[simp] theorem lookup_insertIndex : (d.insertIndex id topic).lookup = d.lookup := rfl

@[simp] theorem byId_insertIndex :
    (d.insertIndex id topic).byId = Function.update d.byId id (some topic) := rfl

@[simp] theorem nextId_insertIndex : (d.insertIndex id topic).nextId = d.nextId := rfl

theorem tidy_insertIndex (hTidy : d.Tidy) : (d.insertIndex id topic).Tidy := hTidy

@[simp] theorem removeIndex_fst : (d.removeIndex id).1 = d.byId id := rfl

@[simp] theorem lookup_removeIndex : (d.removeIndex id).2.lookup = d.lookup := rfl

@[simp] theorem byId_removeIndex :
    (d.removeIndex id).2.byId = Function.update d.byId id none := rfl

@[simp] theorem nextId_removeIndex : (d.removeIndex id).2.nextId = d.nextId := rfl

theorem tidy_removeIndex (hTidy : d.Tidy) : (d.removeIndex id).2.Tidy := hTidy

/-- A removal that finds nothing changes nothing. -/
theorem removeRoute_missing
    (h : (d.lookup topic).findIdx? (fun registration => registration.1 == id) = none) :
    d.removeRoute topic id = (false, d) := by
  unfold lookup at h
  unfold removeRoute
  cases hRoutes : d.routes topic with
  | none => rfl
  | some list =>
      rw [hRoutes] at h
      simp only [h]

/-- A removal that finds a registration takes that place out of its topic. -/
theorem removeRoute_found {pos : Nat}
    (h : (d.lookup topic).findIdx? (fun registration => registration.1 == id) = some pos) :
    d.removeRoute topic id = (true, ⟨Function.update d.routes topic
      (if ((d.lookup topic).eraseIdx pos).isEmpty then none
        else some ((d.lookup topic).eraseIdx pos)), d.byId, d.nextId⟩) := by
  unfold lookup at h ⊢
  unfold removeRoute
  cases hRoutes : d.routes topic with
  | none => simp [hRoutes] at h
  | some list =>
      rw [hRoutes] at h
      simp only [h]

/-- The routes are removed from without a look at the index. -/
@[simp] theorem byId_removeRoute : (d.removeRoute topic id).2.byId = d.byId := by
  cases hFind : (d.lookup topic).findIdx? fun registration => registration.1 == id with
  | none => rw [removeRoute_missing hFind]
  | some pos => rw [removeRoute_found hFind]

@[simp] theorem nextId_removeRoute : (d.removeRoute topic id).2.nextId = d.nextId := by
  cases hFind : (d.lookup topic).findIdx? fun registration => registration.1 == id with
  | none => rw [removeRoute_missing hFind]
  | some pos => rw [removeRoute_found hFind]

/-- The last registration takes its topic along. -/
theorem tidy_removeRoute (hTidy : d.Tidy) : (d.removeRoute topic id).2.Tidy := by
  cases hFind : (d.lookup topic).findIdx? fun registration => registration.1 == id with
  | none => rwa [removeRoute_missing hFind]
  | some pos =>
      rw [removeRoute_found hFind]
      intro other
      rcases eq_or_ne other topic with rfl | hne
      · cases hRest : (d.lookup other).eraseIdx pos <;> simp
      · simpa [hne] using hTidy other

/-- A removal finds what the topic has. -/
theorem removeRoute_fst : (d.removeRoute topic id).1 = true ↔ id ∈ (d.lookup topic).map Prod.fst := by
  cases hFind : (d.lookup topic).findIdx? fun registration => registration.1 == id with
  | none =>
      have hNone := List.findIdx?_eq_none_iff.mp hFind
      simp only [removeRoute_missing hFind, Bool.false_eq_true, List.mem_map, false_iff]
      rintro ⟨registration, hMem, hId⟩
      simpa [hId] using hNone registration hMem
  | some pos =>
      obtain ⟨hBound, hId, -⟩ := List.findIdx?_eq_some_iff_getElem.mp hFind
      simp only [removeRoute_found hFind, List.mem_map, true_iff]
      exact ⟨_, List.getElem_mem hBound, by simpa using hId⟩

/-- The first registration with an id is the only one. -/
theorem eraseIdx_of_nodup {list : List (Registration Handler)} {pos : Nat}
    (hNodup : (list.map Prod.fst).Nodup)
    (hFind : list.findIdx? (fun registration => registration.1 == id) = some pos) :
    list.eraseIdx pos = list.filter fun registration => registration.1 ≠ id := by
  have hErase : list.eraseIdx pos = list.eraseP fun registration => registration.1 == id := by
    rw [List.eraseP_eq_eraseIdx, hFind]
  rw [hErase]
  clear hErase hFind
  induction list with
  | nil => rfl
  | cons registration rest ih =>
      rw [List.map_cons, List.nodup_cons] at hNodup
      by_cases hSame : registration.1 = id
      · have hRest : ∀ other ∈ rest, other.1 ≠ id := fun other hMem hOther =>
          hNodup.1 (hSame.trans hOther.symm ▸ List.mem_map_of_mem hMem)
        rw [List.eraseP_cons_of_pos (by simpa using hSame), List.filter_cons_of_neg (by simpa using hSame)]
        exact (List.filter_eq_self.mpr fun other hMem => by simpa using hRest other hMem).symm
      · rw [List.eraseP_cons_of_neg (by simpa using hSame), ih hNodup.2,
          List.filter_cons_of_pos (by simpa using hSame)]

/-- Where no id occurs twice, a removal filters the id out of its topic. -/
theorem lookup_removeRoute (hNodup : ((d.lookup topic).map Prod.fst).Nodup) :
    (d.removeRoute topic id).2.lookup = Function.update d.lookup topic
      ((d.lookup topic).filter fun registration => registration.1 ≠ id) := by
  funext other
  cases hFind : (d.lookup topic).findIdx? fun registration => registration.1 == id with
  | none =>
      have hAll : (d.lookup topic).filter (fun registration => registration.1 ≠ id) =
          d.lookup topic := List.filter_eq_self.mpr fun registration hMem => by
        simpa using List.findIdx?_eq_none_iff.mp hFind registration hMem
      rw [removeRoute_missing hFind, hAll, Function.update_eq_self]
  | some pos =>
      rw [removeRoute_found hFind, ← eraseIdx_of_nodup hNodup hFind]
      rcases eq_or_ne other topic with rfl | hne
      · cases hRest : (d.lookup other).eraseIdx pos <;> simp [lookup]
      · simp [lookup, hne]

/-- An unknown id is refused. -/
theorem unsubscribe_of_none (h : d.byId id = none) :
    d.unsubscribe id = (false, (d.removeIndex id).2) := by
  simp [unsubscribe, removeIndex, h]

/-- A known id leaves the index, and then the routes of its topic. -/
theorem unsubscribe_of_some (h : d.byId id = some topic) :
    d.unsubscribe id = (d.removeIndex id).2.removeRoute topic id := by
  simp [unsubscribe, removeIndex, h]

@[simp] theorem nextId_unsubscribe : (d.unsubscribe id).2.nextId = d.nextId := by
  cases hIndex : d.byId id with
  | none => rw [unsubscribe_of_none hIndex, nextId_removeIndex]
  | some topic => rw [unsubscribe_of_some hIndex, nextId_removeRoute, nextId_removeIndex]

/-- What has just been subscribed can be unsubscribed. -/
theorem unsubscribe_subscribe :
    ((d.subscribe topic handler).2.unsubscribe (d.subscribe topic handler).1).1 = true := by
  have hIndex : (d.subscribe topic handler).2.byId (d.subscribe topic handler).1 = some topic := by
    simp [subscribe]
  rw [unsubscribe_of_some hIndex, removeRoute_fst, lookup_removeIndex]
  simp [subscribe]

end Dispatcher

end ServiceKernel
