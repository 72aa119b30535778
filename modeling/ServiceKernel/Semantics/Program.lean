import Mathlib.Logic.Function.Basic
import ServiceKernel.Semantics.Execution

/-! Programs over an arbitrary signature of atomic operations, and their
interleaved execution by any number of threads. A program is a tree of
operations: what it does next depends on the answers it has received. The
same program text can be read by one thread alone (`Solo`) or scheduled
against others (`Step`). -/
namespace Interleaving

/-- The operations a program may perform and the answers each can return. -/
structure Signature where
  Op : Type
  Ans : Op → Type

variable {S : Signature} {α β γ : Type}

inductive Program (S : Signature) (α : Type) where
  | done (value : α)
  | perform (o : S.Op) (next : S.Ans o → Program S α)

namespace Program

def bind : Program S α → (α → Program S β) → Program S β
  | .done a, k => k a
  | .perform o next, k => .perform o fun a => (next a).bind k

instance : Monad (Program S) where
  pure := .done
  bind := bind

/-- A single operation, returning its answer. -/
def call (o : S.Op) : Program S (S.Ans o) := .perform o .done

@[simp] theorem pure_eq (a : α) : (pure a : Program S α) = .done a := rfl

@[simp] theorem done_bind (a : α) (k : α → Program S β) : ((.done a : Program S α) >>= k) = k a :=
  rfl

@[simp] theorem perform_bind (o : S.Op) (next : S.Ans o → Program S α) (k : α → Program S β) :
    (Program.perform o next >>= k) = .perform o fun a => next a >>= k := rfl

@[simp] theorem call_bind (o : S.Op) (k : S.Ans o → Program S β) :
    (call o >>= k) = .perform o k := rfl

/-- Every operation the program can reach is allowed, whatever the answers. -/
def All (allowed : S.Op → Prop) : Program S α → Prop
  | .done _ => True
  | .perform o next => allowed o ∧ ∀ a, (next a).All allowed

@[simp] theorem all_done (allowed : S.Op → Prop) (a : α) :
    (Program.done a : Program S α).All allowed ↔ True := Iff.rfl

@[simp] theorem all_perform (allowed : S.Op → Prop) (o : S.Op) (next : S.Ans o → Program S α) :
    (Program.perform o next).All allowed ↔ allowed o ∧ ∀ a, (next a).All allowed := Iff.rfl

@[simp] theorem all_call (allowed : S.Op → Prop) (o : S.Op) :
    (call o).All allowed ↔ allowed o := by
  simp [call]

theorem All.bind {allowed : S.Op → Prop} {p : Program S α} {k : α → Program S β}
    (h : p.All allowed) (hNext : ∀ a, (k a).All allowed) : (p >>= k).All allowed := by
  induction p with
  | done a => exact hNext a
  | perform o next ih => exact ⟨h.1, fun a => ih a (h.2 a)⟩

/-- Every rest the program can come to has the property, whatever the answers. -/
def Everywhere (good : Program S α → Prop) : Program S α → Prop
  | .done a => good (.done a)
  | .perform o next => good (.perform o next) ∧ ∀ a, (next a).Everywhere good

theorem Everywhere.here {good : Program S α → Prop} {p : Program S α} (h : p.Everywhere good) :
    good p := by
  cases p with
  | done a => exact h
  | perform o next => exact h.1

/-- Translate each operation into one of another signature with the same answers. -/
def lift {T : Signature} (op : S.Op → T.Op) (ans : ∀ o, T.Ans (op o) → S.Ans o) :
    Program S α → Program T α
  | .done a => .done a
  | .perform o next => .perform (op o) fun a => (next (ans o a)).lift op ans

section Lift

variable {T : Signature} {op : S.Op → T.Op} {ans : ∀ o, T.Ans (op o) → S.Ans o}

@[simp] theorem lift_done (a : α) : (Program.done a : Program S α).lift op ans = .done a := rfl

@[simp] theorem lift_perform (o : S.Op) (next : S.Ans o → Program S α) :
    (Program.perform o next).lift op ans = .perform (op o) fun a => (next (ans o a)).lift op ans :=
  rfl

@[simp] theorem lift_bind (p : Program S α) (k : α → Program S β) :
    (p >>= k).lift op ans = p.lift op ans >>= fun a => (k a).lift op ans := by
  induction p with
  | done a => rfl
  | perform o next ih => exact congrArg (Program.perform (op o)) (funext fun a => ih (ans o a))

end Lift

theorem all_lift {T : Signature} {op : S.Op → T.Op} {ans : ∀ o, T.Ans (op o) → S.Ans o}
    {allowed : T.Op → Prop} (p : Program S α) (h : ∀ o, allowed (op o)) :
    (p.lift op ans).All allowed := by
  induction p with
  | done a => trivial
  | perform o next ih => exact ⟨h o, fun a => ih _⟩

end Program

/-- Shared state together with the history of who did what. -/
structure World (Thread Shared Event : Type) where
  shared : Shared
  trace : List (Thread × Event)

/-- The meaning of the operations. `exec t o a s` is the state after thread `t`
performs `o` and receives the answer `a`; it is `none` when `o` is blocked in
`s` or cannot answer `a`. -/
structure Machine (S : Signature) (Thread Shared Event : Type) where
  exec : Thread → (o : S.Op) → S.Ans o → Shared → Option Shared
  event : (o : S.Op) → S.Ans o → Event

variable {Thread Shared Event Call Result : Type}

namespace Machine

/-- The world after an operation: the new shared state and one more event. -/
def after (M : Machine S Thread Shared Event) (w : World Thread Shared Event) (t : Thread)
    (o : S.Op) (a : S.Ans o) (shared : Shared) : World Thread Shared Event :=
  ⟨shared, w.trace ++ [(t, M.event o a)]⟩

variable (M : Machine S Thread Shared Event) (w : World Thread Shared Event) (t : Thread)

@[simp] theorem after_shared (o : S.Op) (a : S.Ans o) (shared : Shared) :
    (M.after w t o a shared).shared = shared := rfl

@[simp] theorem after_trace (o : S.Op) (a : S.Ans o) (shared : Shared) :
    (M.after w t o a shared).trace = w.trace ++ [(t, M.event o a)] := rfl

end Machine

/-- A thread is between calls, or inside one with the given rest to run. -/
inductive Status (S : Signature) (Call Result : Type) where
  | idle
  | running (call : Call) (rest : Program S Result)

def Status.isIdle : Status S Call Result → Bool
  | .idle => true
  | .running _ _ => false

theorem Status.isIdle_iff {status : Status S Call Result} : status.isIdle = true ↔ status = .idle := by
  cases status <;> simp [isIdle]

structure Config (S : Signature) (Thread Shared Event Call Result : Type) where
  world : World Thread Shared Event
  threads : Thread → Status S Call Result

inductive Label (S : Signature) (Thread Call : Type) where
  | call (t : Thread) (c : Call)
  | op (t : Thread) (o : S.Op) (a : S.Ans o)
  | ret (t : Thread)

/-- The call a step begins, if it begins one. -/
def Label.begun : Label S Thread Call → Option Call
  | .call _ k => some k
  | _ => none

variable [DecidableEq Thread]

/-- One step of one thread. Any idle thread may begin any call at any time, so
the number of threads and the schedule are unconstrained. -/
inductive Step (M : Machine S Thread Shared Event) (body : Call → Program S Result) :
    Config S Thread Shared Event Call Result → Label S Thread Call →
    Config S Thread Shared Event Call Result → Prop where
  | call {c} {t : Thread} {k : Call} (h : c.threads t = .idle) :
      Step M body c (.call t k)
        { c with threads := Function.update c.threads t (.running k (body k)) }
  | op {c} {t : Thread} {k : Call} {o : S.Op} {next : S.Ans o → Program S Result}
      {a : S.Ans o} {shared : Shared} (h : c.threads t = .running k (.perform o next))
      (hExec : M.exec t o a c.world.shared = some shared) :
      Step M body c (.op t o a)
        ⟨M.after c.world t o a shared, Function.update c.threads t (.running k (next a))⟩
  | ret {c} {t : Thread} {k : Call} {r : Result} (h : c.threads t = .running k (.done r)) :
      Step M body c (.ret t) { c with threads := Function.update c.threads t .idle }

/-- No call is in progress. -/
def Config.Quiescent (c : Config S Thread Shared Event Call Result) : Prop :=
  ∀ t, c.threads t = .idle

/-- All threads idle in the given world. -/
def Config.start (w : World Thread Shared Event) : Config S Thread Shared Event Call Result :=
  ⟨w, fun _ => .idle⟩

omit [DecidableEq Thread] in
theorem Config.Quiescent.eq_start {c : Config S Thread Shared Event Call Result}
    (h : c.Quiescent) : c = Config.start c.world := by
  obtain ⟨w, threads⟩ := c
  simp only [Config.start, Config.mk.injEq, true_and]
  exact funext h

/-- A thread inside a call has come to some rest of that call's program. -/
theorem everywhere_of_reachable {M : Machine S Thread Shared Event} {body : Call → Program S Result}
    {good : Program S Result → Prop} (hBody : ∀ k, (body k).Everywhere good)
    {w : World Thread Shared Event} {c : Config S Thread Shared Event Call Result}
    (reach : Execution.Reachable (Step M body) (Config.start w) c) :
    ∀ t k p, c.threads t = .running k p → p.Everywhere good := by
  refine reach.invariant (fun c => ∀ t k p, c.threads t = .running k p → p.Everywhere good)
    (fun t k p hRun => ?_) fun c label c' h hStep u k' p' hRun => ?_
  · cases hRun
  · cases hStep with
    | @call t k hIdle =>
        rcases eq_or_ne u t with rfl | hne
        · simp only [Function.update_self, Status.running.injEq] at hRun
          exact hRun.2 ▸ hBody k
        · exact h u k' p' (by simpa [hne] using hRun)
    | @op t k o next a shared hAt hExec =>
        rcases eq_or_ne u t with rfl | hne
        · simp only [Function.update_self, Status.running.injEq] at hRun
          exact hRun.2 ▸ (h u k _ hAt).2 a
        · exact h u k' p' (by simpa [hne] using hRun)
    | @ret t k r hAt =>
        rcases eq_or_ne u t with rfl | hne
        · simp at hRun
        · exact h u k' p' (by simpa [hne] using hRun)

section Solo

variable (M : Machine S Thread Shared Event) (t : Thread)

/-- Thread `t` runs a program to its end with no other thread in between. -/
inductive Solo {α : Type} : Program S α → World Thread Shared Event → α →
    World Thread Shared Event → Prop where
  | done (a : α) (w) : Solo (.done a) w a w
  | perform {o : S.Op} {next : S.Ans o → Program S α} {a : S.Ans o} {w finish} {shared : Shared}
      {r : α} (hExec : M.exec t o a w.shared = some shared)
      (rest : Solo (next a) (M.after w t o a shared) r finish) :
      Solo (.perform o next) w r finish

variable {M t} {w middle finish : World Thread Shared Event}

omit [DecidableEq Thread] in
theorem solo_done_iff {a b : α} :
    Solo M t (.done a : Program S α) w b finish ↔ b = a ∧ finish = w := by
  constructor
  · intro h
    cases h
    exact ⟨rfl, rfl⟩
  · rintro ⟨rfl, rfl⟩
    exact Solo.done _ _

omit [DecidableEq Thread] in
theorem solo_perform_iff {o : S.Op} {next : S.Ans o → Program S α} {r : α} :
    Solo M t (.perform o next) w r finish ↔ ∃ a shared, M.exec t o a w.shared = some shared ∧
      Solo M t (next a) (M.after w t o a shared) r finish := by
  constructor
  · intro h
    cases h with
    | perform hExec rest => exact ⟨_, _, hExec, rest⟩
  · rintro ⟨a, shared, hExec, rest⟩
    exact Solo.perform hExec rest

omit [DecidableEq Thread] in
theorem Solo.bind {p : Program S α} {k : α → Program S β} {a : α} {b : β}
    (first : Solo M t p w a middle) (second : Solo M t (k a) middle b finish) :
    Solo M t (p >>= k) w b finish := by
  induction first with
  | done a w => exact second
  | perform hExec rest ih => exact Solo.perform hExec (ih second)

omit [DecidableEq Thread] in
theorem Solo.call {o : S.Op} {a : S.Ans o} {shared : Shared}
    (hExec : M.exec t o a w.shared = some shared) :
    Solo M t (Program.call o) w a (M.after w t o a shared) :=
  Solo.perform hExec (Solo.done _ _)

/-- A solo run is one schedule of the interleaved system. -/
theorem Solo.reachable {body : Call → Program S Result} {k : Call} {p : Program S Result}
    {r : Result} (h : Solo M t p w r finish) (threads : Thread → Status S Call Result)
    (hThread : threads t = .running k p) :
    Execution.Reachable (Step M body) ⟨w, threads⟩
      ⟨finish, Function.update threads t (.running k (.done r))⟩ := by
  induction h generalizing threads with
  | done a w =>
      rw [← hThread, Function.update_eq_self]
      exact Execution.Reachable.refl _
  | @perform o next a w finish shared r hExec rest ih =>
      have hFirst : Step M body ⟨w, threads⟩ (.op t o a)
          ⟨M.after w t o a shared, Function.update threads t (.running k (next a))⟩ :=
        Step.op hThread hExec
      have hRest := ih (Function.update threads t (.running k (next a))) (by simp)
      rw [Function.update_idem] at hRest
      exact (Execution.Runs.single hFirst).reachable.trans hRest

/-- A whole call of one thread, from a configuration where nothing is running. -/
theorem Solo.complete_call {body : Call → Program S Result} {k : Call} {r : Result}
    (h : Solo M t (body k) w r finish) :
    Execution.Reachable (Step M body) (Config.start w) (Config.start finish) := by
  let begun : Thread → Status S Call Result :=
    Function.update (fun _ => .idle) t (.running k (body k))
  have hBegin : Step M body (Config.start w) (.call t k) ⟨w, begun⟩ := Step.call rfl
  have hRun : Execution.Reachable (Step M body) ⟨w, begun⟩ _ :=
    h.reachable begun (Function.update_self ..)
  refine (Execution.Runs.single hBegin).reachable.trans (hRun.trans ?_)
  have hEnd : Step M body ⟨finish, Function.update begun t (.running k (.done r))⟩ (.ret t) _ :=
    Step.ret (Function.update_self ..)
  simp only [begun, Function.update_idem] at hEnd ⊢
  rw [Function.update_eq_self] at hEnd
  exact (Execution.Runs.single hEnd).reachable

end Solo

section Schedule

variable (M : Machine S Thread Shared Event) (body : Call → Program S Result)
  (choose : Thread → (o : S.Op) → Shared → S.Ans o)

/-- A scheduling decision: which thread moves, and what call it begins. -/
inductive Move (Thread Call : Type) where
  | call (t : Thread) (k : Call)
  | go (t : Thread)
  | ret (t : Thread)

def Move.begun : Move Thread Call → Option Call
  | .call _ k => some k
  | _ => none

/-- Carry out one decision, the answers being chosen by `choose`. -/
def advance (c : Config S Thread Shared Event Call Result) :
    Move Thread Call → Option (Config S Thread Shared Event Call Result)
  | .call t k => match c.threads t with
    | .idle => some { c with threads := Function.update c.threads t (.running k (body k)) }
    | .running _ _ => none
  | .go t => match c.threads t with
    | .running k (.perform o next) =>
      let a := choose t o c.world.shared
      (M.exec t o a c.world.shared).map fun shared =>
        ⟨M.after c.world t o a shared, Function.update c.threads t (.running k (next a))⟩
    | _ => none
  | .ret t => match c.threads t with
    | .running _ (.done _) => some { c with threads := Function.update c.threads t .idle }
    | _ => none

def schedule (c : Config S Thread Shared Event Call Result) :
    List (Move Thread Call) → Option (Config S Thread Shared Event Call Result)
  | [] => some c
  | move :: rest => (advance M body choose c move).bind fun c' => schedule c' rest

/-- A schedule every state of which, the first apart, is to be good. -/
def scheduleWithin (good : Config S Thread Shared Event Call Result → Prop) [DecidablePred good]
    (c : Config S Thread Shared Event Call Result) :
    List (Move Thread Call) → Option (Config S Thread Shared Event Call Result)
  | [] => some c
  | move :: rest => (advance M body choose c move).bind fun c' =>
    if good c' then scheduleWithin good c' rest else none

variable {M body choose} {c c' : Config S Thread Shared Event Call Result}

theorem advance_step {move : Move Thread Call} (h : advance M body choose c move = some c') :
    ∃ label, Step M body c label c' ∧ label.begun = move.begun := by
  cases move with
  | call t k =>
      cases hThread : c.threads t with
      | idle =>
          simp only [advance, hThread, Option.some.injEq] at h
          exact ⟨_, h ▸ Step.call hThread, rfl⟩
      | running => simp [advance, hThread] at h
  | go t =>
      cases hThread : c.threads t with
      | idle => simp [advance, hThread] at h
      | running k p =>
          cases p with
          | done r => simp [advance, hThread] at h
          | perform o next =>
              simp only [advance, hThread, Option.map_eq_some_iff] at h
              obtain ⟨shared, hExec, rfl⟩ := h
              exact ⟨_, Step.op hThread hExec, rfl⟩
  | ret t =>
      cases hThread : c.threads t with
      | idle => simp [advance, hThread] at h
      | running k p =>
          cases p with
          | done r =>
              simp only [advance, hThread, Option.some.injEq] at h
              exact ⟨_, h ▸ Step.ret hThread, rfl⟩
          | perform o next => simp [advance, hThread] at h

/-- An executed schedule is a run that begins the calls it lists. -/
theorem schedule_runs {moves : List (Move Thread Call)}
    (h : schedule M body choose c moves = some c') :
    ∃ labels, Execution.Runs (Step M body) c labels c' ∧
      labels.filterMap Label.begun = moves.filterMap Move.begun := by
  induction moves generalizing c with
  | nil =>
      simp only [schedule, Option.some.injEq] at h
      exact ⟨[], h ▸ Execution.Runs.zero _, rfl⟩
  | cons move rest ih =>
      simp only [schedule, Option.bind_eq_some_iff] at h
      obtain ⟨middle, hMove, hRest⟩ := h
      obtain ⟨label, hStep, hBegun⟩ := advance_step hMove
      obtain ⟨labels, hRuns, hCalls⟩ := ih hRest
      refine ⟨[label] ++ labels, (Execution.Runs.single hStep).trans hRuns, ?_⟩
      rw [List.filterMap_append, hCalls, List.filterMap_cons, List.filterMap_cons, hBegun]
      cases move.begun <;> rfl

/-- Such a schedule is a run through good states. -/
theorem scheduleWithin_runs {good : Config S Thread Shared Event Call Result → Prop}
    [DecidablePred good] {moves : List (Move Thread Call)}
    (h : scheduleWithin M body choose good c moves = some c') :
    ∃ labels, Execution.Runs (Execution.Within (Step M body) good) c labels c' := by
  induction moves generalizing c with
  | nil =>
      simp only [scheduleWithin, Option.some.injEq] at h
      exact ⟨[], h ▸ Execution.Runs.zero _⟩
  | cons move rest ih =>
      simp only [scheduleWithin, Option.bind_eq_some_iff, Option.ite_none_right_eq_some] at h
      obtain ⟨middle, hMove, hGood, hRest⟩ := h
      obtain ⟨label, hStep, -⟩ := advance_step hMove
      obtain ⟨labels, hRuns⟩ := ih hRest
      exact ⟨_, Execution.Runs.cons ⟨hStep, hGood⟩ hRuns⟩

theorem schedule_reachable {moves : List (Move Thread Call)}
    (h : schedule M body choose c moves = some c') :
    Execution.Reachable (Step M body) c c' :=
  let ⟨labels, hRuns, _⟩ := schedule_runs h
  ⟨labels, hRuns⟩

end Schedule

end Interleaving
