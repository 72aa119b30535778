import Mathlib.Data.List.Nodup

/-! Two tools for systems that keep a history and are stepped by loops: what
holds of each record given the records before it, and what a loop over distinct
keys does to the view of one key. -/
namespace Execution

section History

variable {Record : Type*} {law : List Record → Record → Prop} {history more : List Record}
  {record : Record}

/-- Each record obeys the law, given the records before it. -/
def Every (law : List Record → Record → Prop) (history : List Record) : Prop :=
  ∀ past record later, history = past ++ record :: later → law past record

@[simp] theorem every_nil : Every law [] := by
  intro past record later h
  simp at h

@[simp] theorem every_concat :
    Every law (history ++ [record]) ↔ Every law history ∧ law history record := by
  constructor
  · intro h
    refine ⟨fun past r later hEq => h past r (later ++ [record]) (by simp [hEq]), ?_⟩
    exact h history record [] rfl
  · rintro ⟨hEvery, hLast⟩ past r later hEq
    rcases List.eq_nil_or_concat later with rfl | ⟨front, last, rfl⟩
    · obtain ⟨rfl, hSame⟩ := List.append_inj' hEq rfl
      obtain rfl : record = r := by simpa using hSame
      exact hLast
    · have hSplit : history ++ [record] = (past ++ r :: front) ++ [last] := by simpa using hEq
      exact hEvery past r front (List.append_inj' hSplit rfl).1

theorem Every.mono {other : List Record → Record → Prop} (h : Every law history)
    (hLaw : ∀ past record, law past record → other past record) : Every other history :=
  fun past record later hEq => hLaw _ _ (h past record later hEq)

theorem Every.of_getElem {index : Nat} (h : Every law history) (hRecord : history[index]? = some record) :
    law (history.take index) record := by
  obtain ⟨hLt, rfl⟩ := List.getElem?_eq_some_iff.mp hRecord
  apply h (history.take index) _ (history.drop (index + 1))
  rw [List.getElem_cons_drop, List.take_append_drop]

/-- A record that comes after another obeys the law with that one in its past. -/
theorem Every.of_pair {earlier : Record} (h : Every law history)
    (hPair : [earlier, record].Sublist history) : ∃ past, earlier ∈ past ∧ law past record := by
  obtain ⟨front, back, rfl, hEarlier, hRecord⟩ := List.cons_sublist_iff.mp hPair
  obtain ⟨middle, later, rfl⟩ := List.append_of_mem (List.singleton_sublist.mp hRecord)
  exact ⟨front ++ middle, List.mem_append_left middle hEarlier, h _ _ later (by simp)⟩

theorem every_cons : Every law (record :: more) ↔
    law [] record ∧ Every (fun past later => law (record :: past) later) more := by
  constructor
  · intro h
    exact ⟨h [] record more rfl, fun past r later hEq => h (record :: past) r later (by simp [hEq])⟩
  · rintro ⟨hFirst, hRest⟩ past r later hEq
    cases past with
    | nil =>
        obtain ⟨rfl, -⟩ := List.cons.inj hEq
        exact hFirst
    | cons head past =>
        obtain ⟨rfl, hTail⟩ := List.cons.inj hEq
        exact hRest past r later hTail

theorem every_append : Every law (history ++ more) ↔
    Every law history ∧ Every (fun past record => law (history ++ past) record) more := by
  induction history generalizing law with
  | nil => simp
  | cons first history ih =>
      rw [List.cons_append, every_cons, ih, every_cons, and_assoc]
      rfl

theorem every_map {Item : Type*} {f : Item → Record} {items : List Item} :
    Every law (items.map f) ↔ Every (fun past item => law (past.map f) (f item)) items := by
  constructor
  · rintro h past item later rfl
    exact h _ _ (later.map f) (by simp)
  · intro h past record later hEq
    obtain ⟨front, rest, rfl, rfl, hRest⟩ := List.map_eq_append_iff.mp hEq
    obtain ⟨item, back, rfl, rfl, rfl⟩ := List.map_eq_cons_iff.mp hRest
    exact h front item back rfl

end History

section Links

variable {Value : Type*} {start finish : Value} {moves : List (Value × Value)}

/-- Moves that link up, from one value to another. -/
def Linked (start : Value) : List (Value × Value) → Value → Prop
  | [], finish => start = finish
  | (source, target) :: rest, finish => source = start ∧ Linked target rest finish

theorem linked_concat {source target : Value} :
    Linked start (moves ++ [(source, target)]) finish ↔ Linked start moves source ∧ target = finish := by
  induction moves generalizing start with
  | nil =>
      simp only [List.nil_append, Linked]
      exact and_congr_left' eq_comm
  | cons move moves ih => simp [Linked, ih, and_assoc]

end Links

/-- Of distinct keys only one counts. -/
theorem filterMap_of_nodup {Key Value : Type*} {f : Key → Option Value} {keys : List Key} {key : Key}
    (hNodup : keys.Nodup) (hMem : key ∈ keys) (hOther : ∀ k, k ≠ key → f k = none) :
    keys.filterMap f = (f key).toList := by
  obtain ⟨front, back, rfl⟩ := List.append_of_mem hMem
  have hApart := List.nodup_middle.mp hNodup
  have hNone : ∀ rest : List Key, key ∉ rest → rest.filterMap f = [] := fun rest hNot =>
    List.filterMap_eq_nil_iff.mpr fun k hIn => hOther k fun hSame => hNot (hSame ▸ hIn)
  have hNot := (List.nodup_cons.mp hApart).1
  rw [List.filterMap_append, hNone front fun hIn => hNot (List.mem_append_left _ hIn),
    List.filterMap_cons, hNone back fun hIn => hNot (List.mem_append_right _ hIn)]
  cases f key <;> rfl

section Fold

variable {State Key View : Type*}

/-- A loop keeps what each of its passes keeps. -/
theorem foldl_keeps (inv : State → Prop) {f : State → Key → State} {keys : List Key} {s : State}
    (hStart : inv s) (hPass : ∀ s key, key ∈ keys → inv s → inv (f s key)) :
    inv (keys.foldl f s) := by
  induction keys generalizing s with
  | nil => exact hStart
  | cons key keys ih =>
      exact ih (hPass s key (by simp) hStart) fun s k hMem => hPass s k (by simp [hMem])

/-- A loop over distinct keys whose passes each move the view of their own key moves
the view of every key it visits once, and no other. `pre` is what a pass needs
of the view it moves. -/
theorem foldl_related (inv : State → Prop) (view : State → Key → View) (pre : View → Prop)
    (move : Key → View → View → Prop) {f : State → Key → State} {keys : List Key} {s : State}
    (hStart : inv s) (hNodup : keys.Nodup) (hPre : ∀ key ∈ keys, pre (view s key))
    (hPass : ∀ s key, key ∈ keys → inv s → pre (view s key) → inv (f s key) ∧
      move key (view s key) (view (f s key) key) ∧ ∀ k, k ≠ key → view (f s key) k = view s k) :
    inv (keys.foldl f s) ∧ (∀ k ∈ keys, move k (view s k) (view (keys.foldl f s) k)) ∧
      ∀ k, k ∉ keys → view (keys.foldl f s) k = view s k := by
  induction keys generalizing s with
  | nil => exact ⟨hStart, fun k hMem => (by cases hMem), fun k _ => rfl⟩
  | cons key keys ih =>
      obtain ⟨hNotMem, hRest⟩ := List.nodup_cons.mp hNodup
      obtain ⟨hInv, hMove, hOther⟩ := hPass s key (by simp) hStart (hPre key (by simp))
      have hNe : ∀ k ∈ keys, k ≠ key := fun k hMem hSame => hNotMem (hSame ▸ hMem)
      have hPre' : ∀ k ∈ keys, pre (view (f s key) k) := by
        intro k hMem
        rw [hOther k (hNe k hMem)]
        exact hPre k (by simp [hMem])
      obtain ⟨hKept, hMoved, hSpared⟩ :=
        ih hInv hRest hPre' fun s k hMem => hPass s k (by simp [hMem])
      refine ⟨hKept, fun k hMem => ?_, fun k hMem => ?_⟩
      · rw [List.foldl_cons]
        rcases List.mem_cons.mp hMem with rfl | hMem
        · rw [hSpared k hNotMem]
          exact hMove
        · rw [← hOther k (hNe k hMem)]
          exact hMoved k hMem
      · rw [List.mem_cons, not_or] at hMem
        rw [List.foldl_cons, hSpared k hMem.2, hOther k hMem.1]

variable [DecidableEq Key]

/-- The same where a pass changes the view by a function. -/
theorem foldl_pointwise (inv : State → Prop) (view : State → Key → View) (pre : View → Prop)
    (change : Key → View → View) {f : State → Key → State} {keys : List Key} {s : State}
    (hStart : inv s) (hNodup : keys.Nodup) (hPre : ∀ key ∈ keys, pre (view s key))
    (hPass : ∀ s key, key ∈ keys → inv s → pre (view s key) → inv (f s key) ∧
      ∀ k, view (f s key) k = if k = key then change key (view s key) else view s k) :
    inv (keys.foldl f s) ∧
      ∀ k, view (keys.foldl f s) k = if k ∈ keys then change k (view s k) else view s k := by
  obtain ⟨hInv, hMoved, hSpared⟩ := foldl_related inv view pre
    (fun key v v' => v' = change key v) hStart hNodup hPre fun s key hMem hInv hView => by
      obtain ⟨hKept, hChange⟩ := hPass s key hMem hInv hView
      exact ⟨hKept, by rw [hChange, if_pos rfl], fun k hNe => by rw [hChange, if_neg hNe]⟩
  refine ⟨hInv, fun k => ?_⟩
  split_ifs with hMem
  · exact hMoved k hMem
  · exact hSpared k hMem

end Fold

end Execution
