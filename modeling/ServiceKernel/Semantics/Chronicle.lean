import Mathlib.Algebra.BigOperators.Group.Finset.Piecewise
import Mathlib.Algebra.GroupWithZero.Nat
import Mathlib.Algebra.Order.Group.Multiset
import ServiceKernel.Semantics.History
import ServiceKernel.Semantics.Program

/-! Runs together with everything that happens in them: which call begins, what it
is answered and what it returns. Whatever the schedule, a call that has
returned has gone through its program, and once all calls have returned the
operations of a run are those of its calls. -/
namespace Interleaving

variable {S : Signature} {α β Thread Shared Event Call Result : Type}

/-- An operation with its answer. -/
abbrev Deed (S : Signature) := (o : S.Op) × S.Ans o

inductive Entry (S : Signature) (Thread Call Result : Type) where
  | began (t : Thread) (k : Call)
  | did (t : Thread) (o : S.Op) (a : S.Ans o)
  | returned (t : Thread) (k : Call) (r : Result)

/-- The return of this thread. -/
def Entry.returns [DecidableEq Thread] (t : Thread) : Entry S Thread Call Result → Bool
  | .returned u _ _ => u = t
  | _ => false

/-- The deed of an entry, and whose it is. -/
def Entry.deed? : Entry S Thread Call Result → Option (Thread × Deed S)
  | .did t o a => some (t, ⟨o, a⟩)
  | _ => none

section Paths

/-- The program can perform these operations, with these answers, and end with this
value. -/
inductive Program.Path : Program S α → List (Deed S) → α → Prop where
  | done (a : α) : Path (.done a) [] a
  | perform {o : S.Op} {next : S.Ans o → Program S α} {a : S.Ans o} {deeds : List (Deed S)} {r : α}
      (rest : Path (next a) deeds r) : Path (.perform o next) (⟨o, a⟩ :: deeds) r

theorem Program.path_done_iff {a r : α} {deeds : List (Deed S)} :
    (Program.done a : Program S α).Path deeds r ↔ deeds = [] ∧ r = a := by
  constructor
  · intro h
    cases h
    exact ⟨rfl, rfl⟩
  · rintro ⟨rfl, rfl⟩
    exact .done _

theorem Program.path_perform_iff {o : S.Op} {next : S.Ans o → Program S α} {r : α}
    {deeds : List (Deed S)} : (Program.perform o next).Path deeds r ↔
      ∃ a rest, deeds = ⟨o, a⟩ :: rest ∧ (next a).Path rest r := by
  constructor
  · intro h
    cases h with
    | perform rest => exact ⟨_, _, rfl, rest⟩
  · rintro ⟨a, rest, rfl, hRest⟩
    exact .perform hRest

/-- A path through two programs, one after the other. -/
theorem Program.path_bind_iff {p : Program S α} {f : α → Program S β} {r : β}
    {deeds : List (Deed S)} : (p >>= f).Path deeds r ↔
      ∃ first rest a, deeds = first ++ rest ∧ p.Path first a ∧ (f a).Path rest r := by
  constructor
  · intro h
    induction p generalizing deeds with
    | done a => exact ⟨[], deeds, a, rfl, .done a, h⟩
    | perform o next ih =>
        obtain ⟨answer, later, rfl, hLater⟩ := Program.path_perform_iff.mp h
        obtain ⟨first, rest, a, rfl, hFirst, hRest⟩ := ih answer hLater
        exact ⟨⟨o, answer⟩ :: first, rest, a, rfl, .perform hFirst, hRest⟩
  · rintro ⟨first, rest, a, rfl, hFirst, hRest⟩
    induction hFirst with
    | done a => exact hRest
    | perform _ ih => exact .perform (ih hRest)

/-- A program whose operations all have answers has a path. -/
theorem Program.exists_path [∀ o, Nonempty (S.Ans o)] (p : Program S α) :
    ∃ deeds r, p.Path deeds r := by
  induction p with
  | done a => exact ⟨[], a, .done a⟩
  | perform o next ih =>
      obtain ⟨a⟩ := ‹∀ o, Nonempty (S.Ans o)› o
      obtain ⟨deeds, r, hPath⟩ := ih a
      exact ⟨_, r, .perform hPath⟩

end Paths

/-- The operations, one after another, lead from one shared state to another. -/
def Machine.Carries (M : Machine S Thread Shared Event) (start : Shared)
    (deeds : List (Thread × Deed S)) (finish : Shared) : Prop :=
  Execution.Runs (fun s (d : Thread × Deed S) s' => M.exec d.1 d.2.1 d.2.2 s = some s')
    start deeds finish

section Followed

variable {Item : Type} {first second : Item → Prop} {items more : List Item}

/-- Every item of the first kind is followed by one of the second. -/
def Followed (first second : Item → Prop) : List Item → Prop
  | [] => True
  | item :: rest => (first item → ∃ later ∈ rest, second later) ∧ Followed first second rest

theorem Followed.append (h : Followed first second items) (hMore : Followed first second more) :
    Followed first second (items ++ more) := by
  induction items with
  | nil => exact hMore
  | cons item rest ih =>
      refine ⟨fun hFirst => ?_, ih h.2⟩
      obtain ⟨later, hMem, hSecond⟩ := h.1 hFirst
      exact ⟨later, List.mem_append_left _ hMem, hSecond⟩

theorem Followed.flatMap {Source : Type} {sources : List Source} {f : Source → List Item}
    (h : ∀ source ∈ sources, Followed first second (f source)) :
    Followed first second (sources.flatMap f) := by
  induction sources with
  | nil => trivial
  | cons source rest ih =>
      rw [List.flatMap_cons]
      exact (h source (by simp)).append (ih fun s hMem => h s (by simp [hMem]))

theorem Followed.later {before after : List Item} {item : Item}
    (h : Followed first second (before ++ item :: after)) (hFirst : first item) :
    ∃ later ∈ after, second later := by
  induction before with
  | nil => exact h.1 hFirst
  | cons item rest ih => exact ih h.2

/-- A place in a list with one more item is the last one or one of those before. -/
theorem split_concat {before after : List Item} {item last : Item}
    (h : items ++ [last] = before ++ item :: after) :
    (items = before ∧ last = item) ∨ ∃ rest, items = before ++ item :: rest := by
  rcases List.eq_nil_or_concat after with rfl | ⟨rest, final, rfl⟩
  · obtain ⟨rfl, hLast⟩ := List.append_inj' h rfl
    exact Or.inl ⟨rfl, List.singleton_inj.mp hLast⟩
  · have hWhole : items ++ [last] = (before ++ item :: rest) ++ [final] := by
      simpa using h
    exact Or.inr ⟨rest, (List.append_inj' hWhole rfl).1⟩

theorem sum_indicator (items : List Item) (kind : Item → Bool) :
    (items.map fun item => if kind item then 1 else 0).sum = items.countP kind := by
  induction items with
  | nil => rfl
  | cons item rest ih =>
      rw [List.map_cons, List.sum_cons, List.countP_cons, ih, Nat.add_comm]

end Followed

section Record

variable [DecidableEq Thread]

/-- A call that has returned. -/
structure Completed (S : Signature) (Thread Call Result : Type) where
  thread : Thread
  call : Call
  deeds : List (Deed S)
  result : Result

/-- What is known of a run: what each thread has done in its present call, and the
calls that have returned. -/
structure Account (S : Signature) (Thread Call Result : Type) where
  pending : Thread → List (Deed S)
  completed : List (Completed S Thread Call Result)

def Account.empty : Account S Thread Call Result := ⟨fun _ => [], []⟩

def Account.after (account : Account S Thread Call Result) :
    Entry S Thread Call Result → Account S Thread Call Result
  | .began _ _ => account
  | .did t o a =>
    { account with pending := Function.update account.pending t (account.pending t ++ [⟨o, a⟩]) }
  | .returned t k r =>
    ⟨Function.update account.pending t [], account.completed ++ [⟨t, k, account.pending t, r⟩]⟩

def accountOf (history : List (Entry S Thread Call Result)) : Account S Thread Call Result :=
  history.foldl Account.after .empty

/-- What a thread has done in its present call. -/
def pendingOf (history : List (Entry S Thread Call Result)) (t : Thread) : List (Deed S) :=
  (accountOf history).pending t

def completedOf (history : List (Entry S Thread Call Result)) :
    List (Completed S Thread Call Result) := (accountOf history).completed

/-- The operations of a run, in the order in which they took effect. -/
def deedsOf (history : List (Entry S Thread Call Result)) : List (Thread × Deed S) :=
  history.filterMap Entry.deed?

variable {history : List (Entry S Thread Call Result)} {t u : Thread} {o : S.Op} {a : S.Ans o}
  {k : Call} {r : Result}

omit [DecidableEq Thread] in
@[simp] theorem deedsOf_did :
    deedsOf (history ++ [.did t o a]) = deedsOf history ++ [(t, ⟨o, a⟩)] := by
  simp [deedsOf, Entry.deed?]

omit [DecidableEq Thread] in
@[simp] theorem deedsOf_began : deedsOf (history ++ [.began t k]) = deedsOf history := by
  simp [deedsOf, Entry.deed?]

omit [DecidableEq Thread] in
@[simp] theorem deedsOf_returned : deedsOf (history ++ [.returned t k r]) = deedsOf history := by
  simp [deedsOf, Entry.deed?]

/-- The operations of one thread, in order. -/
def deedsBy (t : Thread) (history : List (Entry S Thread Call Result)) : List (Deed S) :=
  ((deedsOf history).filter fun d => d.1 = t).map Prod.snd

theorem deedsBy_cons (entry : Entry S Thread Call Result) :
    deedsBy u (entry :: history) = deedsBy u [entry] ++ deedsBy u history := by
  simp only [deedsBy, deedsOf]
  rw [← List.singleton_append, List.filterMap_append, List.filter_append, List.map_append]

@[simp] theorem deedsBy_did : deedsBy u (history ++ [.did t o a]) =
    deedsBy u history ++ if t = u then [⟨o, a⟩] else [] := by
  rw [deedsBy, deedsOf_did, List.filter_append, List.map_append, ← deedsBy]
  split_ifs with hSame <;> simp [hSame]

@[simp] theorem deedsBy_began : deedsBy u (history ++ [.began t k]) = deedsBy u history := by
  simp [deedsBy]

@[simp] theorem deedsBy_returned :
    deedsBy u (history ++ [.returned t k r]) = deedsBy u history := by
  simp [deedsBy]

/-- The first operation of a thread has its place in the history. -/
theorem deedsBy_eq_cons {rest : List (Deed S)} (h : deedsBy t history = ⟨o, a⟩ :: rest) :
    ∃ before later, history = before ++ .did t o a :: later ∧ deedsBy t before = [] ∧
      deedsBy t later = rest := by
  induction history with
  | nil => cases h
  | cons entry history ih =>
      have hOther : deedsBy t [entry] = [] → ∃ before later,
          entry :: history = before ++ .did t o a :: later ∧ deedsBy t before = [] ∧
            deedsBy t later = rest := by
        intro hNone
        rw [deedsBy_cons, hNone] at h
        obtain ⟨before, later, rfl, hBefore, hLater⟩ := ih h
        exact ⟨entry :: before, later, rfl, by rw [deedsBy_cons, hNone, hBefore]; rfl, hLater⟩
      cases entry with
      | began u k => exact hOther rfl
      | returned u k r => exact hOther rfl
      | did u o' a' =>
          rcases eq_or_ne u t with rfl | hne
          · have hHere : deedsBy u [(.did u o' a' : Entry S Thread Call Result)] = [⟨o', a'⟩] := by
              simp [deedsBy, deedsOf, Entry.deed?]
            rw [deedsBy_cons, hHere] at h
            obtain ⟨hFirst, hLater⟩ := List.cons.inj h
            cases hFirst
            exact ⟨[], history, rfl, rfl, hLater⟩
          · exact hOther (by simp [deedsBy, deedsOf, Entry.deed?, hne])

theorem accountOf_concat (entry : Entry S Thread Call Result) :
    accountOf (history ++ [entry]) = (accountOf history).after entry := by
  simp [accountOf]

@[simp] theorem pendingOf_began : pendingOf (history ++ [.began t k]) u = pendingOf history u := by
  simp [pendingOf, accountOf_concat, Account.after]

@[simp] theorem pendingOf_did : pendingOf (history ++ [.did t o a]) =
    Function.update (pendingOf history) t (pendingOf history t ++ [⟨o, a⟩]) := by
  funext u
  simp only [pendingOf, accountOf_concat, Account.after]
  rfl

@[simp] theorem pendingOf_returned : pendingOf (history ++ [.returned t k r]) =
    Function.update (pendingOf history) t [] := by
  funext u
  simp only [pendingOf, accountOf_concat, Account.after]
  rfl

/-- Inside a call a thread's pending operations only grow. -/
theorem pendingOf_append {more : List (Entry S Thread Call Result)}
    (hInside : ∀ k r, .returned t k r ∉ more) :
    pendingOf (history ++ more) t = pendingOf history t ++ deedsBy t more := by
  induction more using List.reverseRecOn with
  | nil => simp [deedsBy, deedsOf]
  | append_singleton more entry ih =>
      have hMore := ih fun k r hMem => hInside k r (List.mem_append_left _ hMem)
      rw [← List.append_assoc]
      cases entry with
      | began u k => rw [pendingOf_began, deedsBy_began, hMore]
      | did u o a =>
          rw [pendingOf_did, deedsBy_did]
          rcases eq_or_ne u t with rfl | hne
          · simp [hMore]
          · simp [hne, Function.update_of_ne hne.symm, hMore]
      | returned u k r =>
          have hne : u ≠ t := by
            rintro rfl
            exact hInside k r (by simp)
          rw [pendingOf_returned, deedsBy_returned, Function.update_of_ne hne.symm, hMore]

@[simp] theorem completedOf_began : completedOf (history ++ [.began t k]) = completedOf history := by
  simp [completedOf, accountOf_concat, Account.after]

@[simp] theorem completedOf_did : completedOf (history ++ [.did t o a]) = completedOf history := by
  simp [completedOf, accountOf_concat, Account.after]

@[simp] theorem completedOf_returned : completedOf (history ++ [.returned t k r]) =
    completedOf history ++ [⟨t, k, pendingOf history t, r⟩] := by
  simp [completedOf, pendingOf, accountOf_concat, Account.after]

/-- A return leaves a record. -/
theorem completed_of_returned (hMem : .returned t k r ∈ history) :
    ∃ call ∈ completedOf history, call.thread = t ∧ call.call = k ∧ call.result = r := by
  induction history using List.reverseRecOn with
  | nil => cases hMem
  | append_singleton history entry ih =>
      rcases List.mem_append.mp hMem with hOld | hNew
      · obtain ⟨call, hCall, hSame⟩ := ih hOld
        refine ⟨call, ?_, hSame⟩
        cases entry with
        | began u k => simpa using hCall
        | did u o a => simpa using hCall
        | returned u k r =>
            rw [completedOf_returned]
            exact List.mem_append_left _ hCall
      · rw [← List.mem_singleton.mp hNew, completedOf_returned]
        exact ⟨_, List.mem_append_right _ (List.mem_singleton_self _), rfl, rfl, rfl⟩

/-- What is left of the call that a thread is in. -/
def restOfCall (t : Thread) (later : List (Entry S Thread Call Result)) :
    List (Entry S Thread Call Result) :=
  later.takeWhile fun entry => !entry.returns t

theorem inside_restOfCall (later : List (Entry S Thread Call Result)) :
    ∀ k r, .returned t k r ∉ restOfCall t later := by
  intro k r hMem
  have hNot := List.all_eq_true.mp List.all_takeWhile _ hMem
  simp [Entry.returns] at hNot

/-- The rest of a call ends with the history or with the return. -/
theorem restOfCall_split (t : Thread) (later : List (Entry S Thread Call Result)) :
    (later = restOfCall t later ∧ ∀ k r, .returned t k r ∉ later) ∨
      ∃ k r after, later = restOfCall t later ++ .returned t k r :: after := by
  let stays : Entry S Thread Call Result → Bool := fun entry => !entry.returns t
  have hWhole : restOfCall t later ++ later.dropWhile stays = later := List.takeWhile_append_dropWhile
  cases hDrop : later.dropWhile stays with
  | nil =>
      rw [hDrop, List.append_nil] at hWhole
      refine Or.inl ⟨hWhole.symm, fun k r hMem => ?_⟩
      rw [← hWhole] at hMem
      exact inside_restOfCall later k r hMem
  | cons entry after =>
      have hSome : later.dropWhile stays ≠ [] := by simp [hDrop]
      have hHead := List.head_dropWhile_not stays hSome
      simp only [hDrop, List.head_cons, stays, Bool.not_eq_false'] at hHead
      rw [hDrop] at hWhole
      cases entry with
      | returned u k r =>
          obtain rfl : u = t := by simpa [Entry.returns] using hHead
          exact Or.inr ⟨k, r, after, hWhole.symm⟩
      | _ => cases hHead

end Record

section Chronicle

variable [DecidableEq Thread] (M : Machine S Thread Shared Event) (body : Call → Program S Result)

/-- A run with its history. -/
inductive Chronicle (start : Config S Thread Shared Event Call Result) :
    List (Entry S Thread Call Result) → Config S Thread Shared Event Call Result → Prop where
  | start : Chronicle start [] start
  | began {history c} {t : Thread} {k : Call} (prior : Chronicle start history c)
      (hIdle : c.threads t = .idle) : Chronicle start (history ++ [.began t k])
        { c with threads := Function.update c.threads t (.running k (body k)) }
  | did {history c} {t : Thread} {k : Call} {o : S.Op} {next : S.Ans o → Program S Result}
      {a : S.Ans o} {shared : Shared} (prior : Chronicle start history c)
      (hRun : c.threads t = .running k (.perform o next))
      (hExec : M.exec t o a c.world.shared = some shared) : Chronicle start (history ++ [.did t o a])
        ⟨M.after c.world t o a shared, Function.update c.threads t (.running k (next a))⟩
  | returned {history c} {t : Thread} {k : Call} {r : Result} (prior : Chronicle start history c)
      (hRun : c.threads t = .running k (.done r)) : Chronicle start (history ++ [.returned t k r])
        { c with threads := Function.update c.threads t .idle }

variable {M body} {start c : Config S Thread Shared Event Call Result} {w : World Thread Shared Event}
  {history : List (Entry S Thread Call Result)} {t : Thread} {k : Call} {r : Result}

theorem Chronicle.reachable (h : Chronicle M body start history c) :
    Execution.Reachable (Step M body) start c := by
  induction h with
  | start => exact Execution.Reachable.refl _
  | began prior hIdle ih => exact ih.tail (Step.call hIdle)
  | did prior hRun hExec ih => exact ih.tail (Step.op hRun hExec)
  | returned prior hRun ih => exact ih.tail (Step.ret hRun)

/-- Every reachable configuration has a history. -/
theorem exists_chronicle (reach : Execution.Reachable (Step M body) start c) :
    ∃ history, Chronicle M body start history c := by
  apply reach.invariant (fun c => ∃ history, Chronicle M body start history c) ⟨[], .start⟩
  rintro c label c' ⟨history, h⟩ hStep
  cases hStep with
  | call hIdle => exact ⟨_, h.began hIdle⟩
  | op hRun hExec => exact ⟨_, h.did hRun hExec⟩
  | ret hRun => exact ⟨_, h.returned hRun⟩

/-- The first part of a run is a run. -/
theorem Chronicle.first_part {before after : List (Entry S Thread Call Result)}
    (h : Chronicle M body start (before ++ after) c) :
    ∃ middle, Chronicle M body start before middle := by
  induction after using List.reverseRecOn generalizing c with
  | nil => exact ⟨c, by simpa using h⟩
  | append_singleton after entry ih =>
      rw [← List.append_assoc] at h
      generalize hWhole : before ++ after ++ [entry] = whole at h
      cases h with
      | start => simp at hWhole
      | began prior hIdle => exact ih ((List.append_inj' hWhole rfl).1 ▸ prior)
      | did prior hRun hExec => exact ih ((List.append_inj' hWhole rfl).1 ▸ prior)
      | returned prior hRun => exact ih ((List.append_inj' hWhole rfl).1 ▸ prior)

/-- The configuration in which an operation took effect. -/
theorem Chronicle.at_did {before after : List (Entry S Thread Call Result)} {o : S.Op} {a : S.Ans o}
    (h : Chronicle M body start (before ++ .did t o a :: after) c) :
    ∃ middle k next shared, Chronicle M body start before middle ∧
      middle.threads t = .running k (.perform o next) ∧
      M.exec t o a middle.world.shared = some shared := by
  rw [List.append_cons] at h
  obtain ⟨next, hPart⟩ := h.first_part
  generalize hWhole : before ++ [Entry.did t o a] = whole at hPart
  cases hPart with
  | start => simp at hWhole
  | began prior hIdle => cases (List.append_inj' hWhole rfl).2
  | returned prior hRun => cases (List.append_inj' hWhole rfl).2
  | did prior hRun hExec =>
      obtain ⟨rfl, hLast⟩ := List.append_inj' hWhole rfl
      cases hLast
      exact ⟨_, _, _, _, prior, hRun, hExec⟩

/-- The configuration in which a call returned. -/
theorem Chronicle.at_returned {before after : List (Entry S Thread Call Result)}
    (h : Chronicle M body start (before ++ .returned t k r :: after) c) :
    ∃ middle, Chronicle M body start before middle ∧ middle.threads t = .running k (.done r) := by
  rw [List.append_cons] at h
  obtain ⟨next, hPart⟩ := h.first_part
  generalize hWhole : before ++ [Entry.returned t k r] = whole at hPart
  cases hPart with
  | start => simp at hWhole
  | began prior hIdle => cases (List.append_inj' hWhole rfl).2
  | did prior hRun hExec => cases (List.append_inj' hWhole rfl).2
  | returned prior hRun =>
      obtain ⟨rfl, hLast⟩ := List.append_inj' hWhole rfl
      cases hLast
      exact ⟨_, prior, hRun⟩

/-- The trace of a run is made of its operations. -/
theorem Chronicle.trace (h : Chronicle M body start history c) : c.world.trace =
    start.world.trace ++ (deedsOf history).map fun d => (d.1, M.event d.2.1 d.2.2) := by
  induction h with
  | start => simp [deedsOf]
  | began prior hIdle ih => simpa using ih
  | did prior hRun hExec ih => simp [ih]
  | returned prior hRun ih => simpa using ih

/-- A thread inside a call has gone through the first part of its program; an idle
one has nothing pending. -/
theorem Chronicle.midway (h : Chronicle M body (Config.start w) history c) :
    ∀ t, (c.threads t = .idle → pendingOf history t = []) ∧
      ∀ k program, c.threads t = .running k program → ∀ deeds r, program.Path deeds r →
        (body k).Path (pendingOf history t ++ deeds) r := by
  induction h with
  | start =>
      refine fun t => ⟨fun _ => rfl, fun k program hRun => ?_⟩
      cases hRun
  | @began history c t k prior hIdle ih =>
      intro u
      rcases eq_or_ne u t with rfl | hne
      · refine ⟨fun hSame => by simp at hSame, fun k' program hRun deeds r hPath => ?_⟩
        simp only [Function.update_self, Status.running.injEq] at hRun
        obtain ⟨rfl, rfl⟩ := hRun
        rw [pendingOf_began, (ih u).1 hIdle]
        exact hPath
      · simpa [hne] using ih u
  | @did history c t k o next a shared prior hRun hExec ih =>
      intro u
      rcases eq_or_ne u t with rfl | hne
      · refine ⟨fun hSame => by simp at hSame, fun k' program hNow deeds r hPath => ?_⟩
        simp only [Function.update_self, Status.running.injEq] at hNow
        obtain ⟨rfl, rfl⟩ := hNow
        have hWhole := (ih u).2 _ _ hRun (⟨o, a⟩ :: deeds) r (.perform hPath)
        simpa using hWhole
      · simpa [hne] using ih u
  | @returned history c t k r prior hRun ih =>
      intro u
      rcases eq_or_ne u t with rfl | hne
      · refine ⟨fun _ => by simp, fun k' program hNow => ?_⟩
        simp at hNow
      · simpa [hne] using ih u

/-- A call in progress has begun, its thread has begun and returned no other call since, and
what it has done since is what is pending. -/
theorem Chronicle.call_of_running (h : Chronicle M body (Config.start w) history c) :
    ∀ t k program, c.threads t = .running k program → ∃ before inside,
      history = before ++ .began t k :: inside ∧ deedsBy t inside = pendingOf history t ∧
      (∀ k', .began t k' ∉ inside) ∧ ∀ k' r, .returned t k' r ∉ inside := by
  induction h with
  | start =>
      intro t k program hRun
      cases hRun
  | @began history c u k prior hIdle ih =>
      intro t k' program hRun
      rcases eq_or_ne t u with rfl | hne
      · simp only [Function.update_self, Status.running.injEq] at hRun
        obtain ⟨rfl, -⟩ := hRun
        refine ⟨history, [], rfl, ?_, by simp, by simp⟩
        rw [pendingOf_began, (prior.midway t).1 hIdle]
        rfl
      · obtain ⟨before, inside, rfl, hDeeds, hBegan, hReturned⟩ :=
          ih t k' program (by simpa [hne] using hRun)
        refine ⟨before, inside ++ [.began u k], by simp, ?_, ?_, ?_⟩
        · rw [deedsBy_began, pendingOf_began, hDeeds]
        · simpa [hne] using hBegan
        · simpa using hReturned
  | @did history c u k o next a shared prior hRun hExec ih =>
      intro t k' program hNow
      have hBefore : ∃ program, c.threads t = .running k' program := by
        rcases eq_or_ne t u with rfl | hne
        · simp only [Function.update_self, Status.running.injEq] at hNow
          exact ⟨_, hNow.1 ▸ hRun⟩
        · exact ⟨program, by simpa [hne] using hNow⟩
      obtain ⟨program, hBefore⟩ := hBefore
      obtain ⟨before, inside, rfl, hDeeds, hBegan, hReturned⟩ := ih t k' program hBefore
      refine ⟨before, inside ++ [.did u o a], by simp, ?_, by simpa using hBegan,
        by simpa using hReturned⟩
      rw [deedsBy_did, pendingOf_did, hDeeds]
      rcases eq_or_ne u t with rfl | hne
      · simp
      · simp [hne, Function.update_of_ne hne.symm]
  | @returned history c u k r prior hRun ih =>
      intro t k' program hNow
      rcases eq_or_ne t u with rfl | hne
      · simp at hNow
      · obtain ⟨before, inside, rfl, hDeeds, hBegan, hReturned⟩ :=
          ih t k' program (by simpa [hne] using hNow)
        refine ⟨before, inside ++ [.returned u k r], by simp, ?_, by simpa using hBegan, ?_⟩
        · rw [deedsBy_returned, pendingOf_returned, Function.update_of_ne hne, hDeeds]
        · simpa [hne] using hReturned

/-- A call that returns has begun, and what its thread did in between is a way through
its program. -/
theorem Chronicle.call_of_returned {before after : List (Entry S Thread Call Result)}
    (h : Chronicle M body (Config.start w) (before ++ .returned t k r :: after) c) :
    ∃ earlier inside, before = earlier ++ .began t k :: inside ∧ (body k).Path (deedsBy t inside) r ∧
      (∀ k', .began t k' ∉ inside) ∧ ∀ k' r', .returned t k' r' ∉ inside := by
  obtain ⟨middle, hPrior, hDone⟩ := h.at_returned
  obtain ⟨earlier, inside, hBefore, hDeeds, hBegan, hReturned⟩ :=
    hPrior.call_of_running t k _ hDone
  have hPath := (hPrior.midway t).2 k _ hDone [] r (.done r)
  rw [List.append_nil, ← hDeeds] at hPath
  exact ⟨earlier, inside, hBefore, hPath, hBegan, hReturned⟩

/-- A call that has returned has gone through its program. -/
theorem Chronicle.completed_path (h : Chronicle M body (Config.start w) history c) :
    ∀ call ∈ completedOf history, (body call.call).Path call.deeds call.result := by
  induction h with
  | start => simp [completedOf, accountOf, Account.empty]
  | began prior hIdle ih => simpa using ih
  | did prior hRun hExec ih => simpa using ih
  | @returned history c t k r prior hRun ih =>
      intro call hMem
      rw [completedOf_returned, List.mem_append, List.mem_singleton] at hMem
      rcases hMem with hMem | rfl
      · exact ih call hMem
      · simpa using (prior.midway t).2 k _ hRun [] r (.done r)

/-- The operations of a history, one after another, lead to the shared state. -/
theorem Chronicle.carries (h : Chronicle M body start history c) :
    M.Carries start.world.shared (deedsOf history) c.world.shared := by
  induction h with
  | start => exact Execution.Runs.zero _
  | began prior hIdle ih => simpa using ih
  | did prior hRun hExec ih =>
      rw [deedsOf_did]
      exact Execution.Runs.succ ih hExec
  | returned prior hRun ih => simpa using ih

/-- The operations of one thread are those of its calls, call after call. -/
theorem Chronicle.by_thread (h : Chronicle M body (Config.start w) history c)
    (t : Thread) : deedsBy t history =
      ((completedOf history).filter fun call => call.thread = t).flatMap Completed.deeds ++
        pendingOf history t := by
  induction h with
  | start => rfl
  | began prior hIdle ih => simpa using ih
  | @did history c u k o next a shared prior hRun hExec ih =>
      rw [deedsBy_did, ih, completedOf_did, pendingOf_did]
      rcases eq_or_ne u t with rfl | hne
      · simp
      · simp [hne, Function.update_of_ne hne.symm]
  | @returned history c u k r prior hRun ih =>
      rw [deedsBy_returned, ih, completedOf_returned, pendingOf_returned, List.filter_append]
      rcases eq_or_ne u t with rfl | hne
      · simp
      · simp [hne, Function.update_of_ne hne.symm]

/-- What a thread has done in its present call is part of the run, in this order. -/
theorem Chronicle.pending_sublist (h : Chronicle M body (Config.start w) history c) (t : Thread) :
    ((pendingOf history t).map fun deed => (t, deed)).Sublist (deedsOf history) := by
  have hMine : ((deedsBy t history).map fun deed => (t, deed)).Sublist (deedsOf history) := by
    have hSame : (deedsBy t history).map (fun deed => (t, deed)) =
        (deedsOf history).filter fun d => d.1 = t := by
      rw [deedsBy, List.map_map]
      exact (List.map_congr_left fun d hMem => by
        rw [← of_decide_eq_true (List.mem_filter.mp hMem).2]
        rfl).trans (List.map_id _)
    rw [hSame]
    exact List.filter_sublist
  rw [h.by_thread t, List.map_append] at hMine
  exact (List.sublist_append_right _ _).trans hMine

/-- At rest every operation belongs to a call that has returned. -/
theorem Chronicle.of_call (h : Chronicle M body (Config.start w) history c)
    (hQuiet : c.Quiescent) {deed : Deed S} (hMem : (t, deed) ∈ deedsOf history) :
    ∃ call ∈ completedOf history, deed ∈ call.deeds := by
  have hMine : deed ∈ deedsBy t history :=
    List.mem_map.mpr ⟨(t, deed), List.mem_filter.mpr ⟨hMem, by simp⟩, rfl⟩
  rw [h.by_thread t, (h.midway t).1 (hQuiet t), List.append_nil] at hMine
  obtain ⟨call, hCall, hDeed⟩ := List.mem_flatMap.mp hMine
  exact ⟨call, List.mem_of_mem_filter hCall, hDeed⟩

/-- What a returned call performed is part of the run. -/
theorem Chronicle.of_completed (h : Chronicle M body (Config.start w) history c)
    {call : Completed S Thread Call Result} (hCall : call ∈ completedOf history) {deed : Deed S}
    (hMem : deed ∈ call.deeds) : (call.thread, deed) ∈ deedsOf history := by
  have hMine : deed ∈ deedsBy call.thread history := by
    rw [h.by_thread call.thread]
    refine List.mem_append_left _ (List.mem_flatMap.mpr ⟨call, ?_, hMem⟩)
    exact List.mem_filter.mpr ⟨hCall, by simp⟩
  obtain ⟨⟨u, d⟩, hKept, rfl⟩ := List.mem_map.mp hMine
  obtain ⟨hIn, hThread⟩ := List.mem_filter.mp hKept
  obtain rfl : u = call.thread := by simpa using hThread
  exact hIn

/-- What every call performs after an operation of some kind, its thread performs after
it in the run. -/
theorem Chronicle.followed {first second : Deed S → Prop}
    (h : Chronicle M body (Config.start w) history c) (hQuiet : c.Quiescent)
    (hCalls : ∀ call ∈ completedOf history, Followed first second call.deeds)
    {before after : List (Thread × Deed S)} {deed : Deed S}
    (hSplit : deedsOf history = before ++ (t, deed) :: after) (hFirst : first deed) :
    ∃ later, (t, later) ∈ after ∧ second later := by
  have hMine : Followed first second (deedsBy t history) := by
    rw [h.by_thread t, (h.midway t).1 (hQuiet t), List.append_nil]
    exact Followed.flatMap fun call hMem => hCalls call (List.mem_of_mem_filter hMem)
  rw [deedsBy, hSplit, List.filter_append, List.filter_cons_of_pos (by simp), List.map_append,
    List.map_cons] at hMine
  obtain ⟨later, hMem, hSecond⟩ := hMine.later hFirst
  obtain ⟨⟨u, d⟩, hKept, rfl⟩ := List.mem_map.mp hMem
  obtain ⟨hAfter, hThread⟩ := List.mem_filter.mp hKept
  obtain rfl : u = t := by simpa using hThread
  exact ⟨d, hAfter, hSecond⟩

section Balance

variable {Amount : Type} [AddCommMonoid Amount] (weight : Deed S → Amount)

def weighed (deeds : List (Deed S)) : Amount := (deeds.map weight).sum

@[simp] theorem weighed_nil : weighed weight [] = 0 := rfl

@[simp] theorem weighed_cons (deed : Deed S) (deeds : List (Deed S)) :
    weighed weight (deed :: deeds) = weight deed + weighed weight deeds := by
  simp [weighed]

@[simp] theorem weighed_append (deeds more : List (Deed S)) :
    weighed weight (deeds ++ more) = weighed weight deeds + weighed weight more := by
  simp [weighed]

/-- The weight of all operations of a run is that of its completed calls and of what
the finitely many threads inside a call have done. -/
theorem Chronicle.balance (h : Chronicle M body (Config.start w) history c) :
    ∃ inside : Finset Thread, (∀ t, t ∉ inside → c.threads t = .idle) ∧
      weighed weight ((deedsOf history).map Prod.snd) =
        ((completedOf history).map fun call => weighed weight call.deeds).sum +
          ∑ t ∈ inside, weighed weight (pendingOf history t) := by
  induction h with
  | start =>
      refine ⟨∅, fun t _ => rfl, ?_⟩
      simp [deedsOf, completedOf, accountOf, Account.empty]
  | @began history c t k prior hIdle ih =>
      obtain ⟨inside, hOutside, hSum⟩ := ih
      refine ⟨insert t inside, fun u hNot => ?_, ?_⟩
      · rw [Finset.mem_insert, not_or] at hNot
        simpa [hNot.1] using hOutside u hNot.2
      · rw [Finset.sum_insert_of_eq_zero_if_notMem]
        · simpa using hSum
        · intro _
          rw [pendingOf_began, (prior.midway t).1 hIdle, weighed_nil]
  | @did history c t k o next a shared prior hRun hExec ih =>
      obtain ⟨inside, hOutside, hSum⟩ := ih
      have hMem : t ∈ inside := by
        by_contra hNot
        rw [hOutside t hNot] at hRun
        cases hRun
      refine ⟨inside, fun u hNot => ?_, ?_⟩
      · have hne : u ≠ t := fun hSame => hNot (hSame ▸ hMem)
        simpa [hne] using hOutside u hNot
      · have hOthers : ∀ u ∈ inside.erase t, weighed weight (pendingOf (history ++ [.did t o a]) u) =
            weighed weight (pendingOf history u) := fun u hU => by
          simp [(Finset.mem_erase.mp hU).1]
        rw [← Finset.add_sum_erase _ _ hMem] at hSum
        rw [← Finset.add_sum_erase _ _ hMem, Finset.sum_congr rfl hOthers, deedsOf_did, completedOf_did,
          List.map_append, weighed_append, hSum]
        simp [add_assoc, add_left_comm, add_comm]
  | @returned history c t k r prior hRun ih =>
      obtain ⟨inside, hOutside, hSum⟩ := ih
      have hMem : t ∈ inside := by
        by_contra hNot
        rw [hOutside t hNot] at hRun
        cases hRun
      refine ⟨inside, fun u hNot => ?_, ?_⟩
      · have hne : u ≠ t := fun hSame => hNot (hSame ▸ hMem)
        simpa [hne] using hOutside u hNot
      · have hOthers : ∀ u ∈ inside.erase t,
            weighed weight (pendingOf (history ++ [.returned t k r]) u) =
              weighed weight (pendingOf history u) := fun u hU => by
          simp [(Finset.mem_erase.mp hU).1]
        rw [← Finset.add_sum_erase _ _ hMem] at hSum
        rw [← Finset.add_sum_erase _ _ hMem, Finset.sum_congr rfl hOthers, deedsOf_returned,
          completedOf_returned, hSum]
        simp [add_assoc]

/-- Once all calls have returned, the operations of the run are those of its calls. -/
theorem Chronicle.settled (h : Chronicle M body (Config.start w) history c)
    (hQuiet : c.Quiescent) : weighed weight ((deedsOf history).map Prod.snd) =
      ((completedOf history).map fun call => weighed weight call.deeds).sum := by
  obtain ⟨inside, -, hSum⟩ := h.balance weight
  rw [hSum, Finset.sum_eq_zero, add_zero]
  intro t _
  rw [(h.midway t).1 (hQuiet t), weighed_nil]

/-- The operations of one kind, counted. -/
theorem Chronicle.settled_count (h : Chronicle M body (Config.start w) history c)
    (hQuiet : c.Quiescent) (kind : Deed S → Bool) :
    (deedsOf history).countP (fun d => kind d.2) =
      ((completedOf history).map fun call => call.deeds.countP kind).sum := by
  have hSum := h.settled (fun d => if kind d then 1 else 0) hQuiet
  have hCount : ∀ deeds : List (Deed S),
      weighed (fun d => if kind d then 1 else 0) deeds = deeds.countP kind := by
    exact fun deeds => sum_indicator deeds kind
  simpa [hCount, List.countP_map, Function.comp_def] using hSum

/-- The operations of one kind in the calls that have returned are some of the run. -/
theorem Chronicle.count_le (h : Chronicle M body (Config.start w) history c) (kind : Deed S → Bool) :
    ((completedOf history).map fun call => call.deeds.countP kind).sum ≤
      (deedsOf history).countP (fun d => kind d.2) := by
  obtain ⟨inside, -, hSum⟩ := h.balance fun d => if kind d then 1 else 0
  have hCount : ∀ deeds : List (Deed S),
      weighed (fun d => if kind d then 1 else 0) deeds = deeds.countP kind := by
    exact fun deeds => sum_indicator deeds kind
  simp only [hCount, List.countP_map, Function.comp_def] at hSum
  rw [hSum]
  exact Nat.le_add_right _ _

/-- What the operations of a run leave behind of two kinds is the same up to order, if it
is so in every call. -/
theorem Chronicle.settled_perm {Item : Type} (f g : Deed S → Option Item)
    (h : Chronicle M body (Config.start w) history c) (hQuiet : c.Quiescent)
    (hCalls : ∀ call ∈ completedOf history,
      (call.deeds.filterMap f).Perm (call.deeds.filterMap g)) :
    ((deedsOf history).filterMap fun d => f d.2).Perm
      ((deedsOf history).filterMap fun d => g d.2) := by
  have hBag : ∀ (kind : Deed S → Option Item) (deeds : List (Deed S)),
      weighed (fun d => ((kind d).toList : Multiset Item)) deeds = (deeds.filterMap kind : Multiset Item) := by
    intro kind deeds
    induction deeds with
    | nil => rfl
    | cons d rest ih =>
        rw [weighed_cons, ih]
        cases hKind : kind d <;> simp [hKind]
  have hSame : (completedOf history).map (fun call =>
        weighed (fun d => ((f d).toList : Multiset Item)) call.deeds) =
      (completedOf history).map fun call =>
        weighed (fun d => ((g d).toList : Multiset Item)) call.deeds :=
    List.map_congr_left fun call hCall => by
      rw [hBag, hBag, Multiset.coe_eq_coe]
      exact hCalls call hCall
  have hTotal := h.settled (fun d => ((f d).toList : Multiset Item)) hQuiet
  rw [hSame, ← h.settled (fun d => ((g d).toList : Multiset Item)) hQuiet, hBag, hBag,
    Multiset.coe_eq_coe, List.filterMap_map, List.filterMap_map] at hTotal
  exact hTotal

end Balance

section Schedule

variable (M body) (choose : Thread → (o : S.Op) → Shared → S.Ans o)

/-- Carry out one scheduling decision and note what happens. -/
def advanceNoting (run : List (Entry S Thread Call Result) × Config S Thread Shared Event Call Result)
    (move : Move Thread Call) :
    Option (List (Entry S Thread Call Result) × Config S Thread Shared Event Call Result) :=
  let (history, c) := run
  match move with
  | .call t k => match c.threads t with
    | .idle => some (history ++ [.began t k],
        { c with threads := Function.update c.threads t (.running k (body k)) })
    | .running _ _ => none
  | .go t => match c.threads t with
    | .running k (.perform o next) =>
      let a := choose t o c.world.shared
      (M.exec t o a c.world.shared).map fun shared => (history ++ [.did t o a],
        ⟨M.after c.world t o a shared, Function.update c.threads t (.running k (next a))⟩)
    | _ => none
  | .ret t => match c.threads t with
    | .running k (.done r) => some (history ++ [.returned t k r],
        { c with threads := Function.update c.threads t .idle })
    | _ => none

def scheduleNoting : List (Entry S Thread Call Result) × Config S Thread Shared Event Call Result →
    List (Move Thread Call) →
    Option (List (Entry S Thread Call Result) × Config S Thread Shared Event Call Result)
  | run, [] => some run
  | run, move :: rest => (advanceNoting M body choose run move).bind fun run' =>
      scheduleNoting run' rest

variable {M body choose}

theorem Chronicle.advanced {c' : Config S Thread Shared Event Call Result}
    {history' : List (Entry S Thread Call Result)} {move : Move Thread Call}
    (h : Chronicle M body start history c)
    (hMove : advanceNoting M body choose (history, c) move = some (history', c')) :
    Chronicle M body start history' c' := by
  cases move with
  | call t k =>
      cases hThread : c.threads t with
      | running => simp [advanceNoting, hThread] at hMove
      | idle =>
          simp only [advanceNoting, hThread, Option.some.injEq, Prod.mk.injEq] at hMove
          obtain ⟨rfl, rfl⟩ := hMove
          exact h.began hThread
  | go t =>
      cases hThread : c.threads t with
      | idle => simp [advanceNoting, hThread] at hMove
      | running k p =>
          cases p with
          | done r => simp [advanceNoting, hThread] at hMove
          | perform o next =>
              simp only [advanceNoting, hThread, Option.map_eq_some_iff, Prod.mk.injEq] at hMove
              obtain ⟨shared, hExec, rfl, rfl⟩ := hMove
              exact h.did hThread hExec
  | ret t =>
      cases hThread : c.threads t with
      | idle => simp [advanceNoting, hThread] at hMove
      | running k p =>
          cases p with
          | perform o next => simp [advanceNoting, hThread] at hMove
          | done r =>
              simp only [advanceNoting, hThread, Option.some.injEq, Prod.mk.injEq] at hMove
              obtain ⟨rfl, rfl⟩ := hMove
              exact h.returned hThread

/-- An executed schedule with its history. -/
theorem Chronicle.scheduled {c' : Config S Thread Shared Event Call Result}
    {history' : List (Entry S Thread Call Result)} {moves : List (Move Thread Call)}
    (h : Chronicle M body start history c)
    (hMoves : scheduleNoting M body choose (history, c) moves = some (history', c')) :
    Chronicle M body start history' c' := by
  induction moves generalizing history c with
  | nil =>
      simp only [scheduleNoting, Option.some.injEq, Prod.mk.injEq] at hMoves
      obtain ⟨rfl, rfl⟩ := hMoves
      exact h
  | cons move rest ih =>
      obtain ⟨⟨middle, c₁⟩, hMove, hRest⟩ := Option.bind_eq_some_iff.mp hMoves
      exact ih (h.advanced hMove) hRest

end Schedule

end Chronicle

end Interleaving
