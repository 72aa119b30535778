import ServiceKernel.Semantics.Program

/-! What one thread can make of a program when it runs alone and may choose among
the answers that the machine allows: the existential counterpart of an
invariant. It is used to show that some run of a system gets somewhere. -/
namespace Interleaving

variable {S : Signature} {α β Thread Shared Event Call Result : Type}

section Rules

variable (M : Machine S Thread Shared Event) (t : Thread)

/-- Some answers lead the program to an end that satisfies `post`. -/
def CanFinish (post : α → Shared → Prop) : Program S α → Shared → Prop
  | .done a => post a
  | .perform o next => fun s => ∃ a s', M.exec t o a s = some s' ∧ CanFinish post (next a) s'

variable {M t} {post : α → Shared → Prop} {s : Shared} {program : Program S α}

/-- One operation, by the answer that it is to give. -/
theorem CanFinish.op {o : S.Op} {next : S.Ans o → Program S α} {s' : Shared} (a : S.Ans o)
    (hExec : M.exec t o a s = some s') (h : CanFinish M t post (next a) s') :
    CanFinish M t post (.perform o next) s := ⟨a, s', hExec, h⟩

theorem CanFinish.mono {post' : α → Shared → Prop} (h : CanFinish M t post program s)
    (hPost : ∀ a s, post a s → post' a s) : CanFinish M t post' program s := by
  induction program generalizing s with
  | done a => exact hPost a s h
  | perform o next ih =>
      obtain ⟨a, s', hExec, hNext⟩ := h
      exact .op a hExec (ih a hNext)

/-- Sequencing: the second program goes on from where the first can get. -/
theorem CanFinish.bind {post : β → Shared → Prop} {mid : α → Shared → Prop} {k : α → Program S β}
    (h : CanFinish M t mid program s) (hNext : ∀ a s', mid a s' → CanFinish M t post (k a) s') :
    CanFinish M t post (program >>= k) s := by
  induction program generalizing s with
  | done a => exact hNext a s h
  | perform o next ih =>
      obtain ⟨a, s', hExec, hRest⟩ := h
      exact .op a hExec (ih a hRest)

/-- A component's program, run on the part of a larger state that belongs to the
component. The rest of the state stays as it is. -/
theorem CanFinish.lift {T : Signature} {Whole Record : Type} (N : Machine T Thread Whole Record)
    (op : S.Op → T.Op) (ans : ∀ o, T.Ans (op o) → S.Ans o) (view : Whole → Shared)
    (put : Whole → Shared → Whole)
    (hExec : ∀ o a w s', M.exec t o a (view w) = some s' →
      ∃ a', ans o a' = a ∧ N.exec t (op o) a' w = some (put w s'))
    (hView : ∀ w s, view (put w s) = s) (hPut : ∀ w s s', put (put w s) s' = put w s')
    (hSame : ∀ w, put w (view w) = w) {w : Whole} (h : CanFinish M t post program (view w)) :
    CanFinish N t (fun a w' => post a (view w') ∧ w' = put w (view w')) (program.lift op ans) w := by
  induction program generalizing w with
  | done a => exact ⟨h, (hSame w).symm⟩
  | perform o next ih =>
      obtain ⟨a, s', hStep, hRest⟩ := h
      obtain ⟨a', rfl, hStep'⟩ := hExec o a w s' hStep
      rw [← hView w s'] at hRest
      refine .op a' hStep' ((ih _ hRest).mono fun r w' hEnd => ⟨hEnd.1, ?_⟩)
      rw [hEnd.2, hPut, hView]

end Rules

section Restrict

variable {M : Machine S Thread Shared Event} {allows : (o : S.Op) → S.Ans o → Bool} {t : Thread}

/-- The machine in an environment that gives only some of the answers. -/
def Machine.restrict (M : Machine S Thread Shared Event) (allows : (o : S.Op) → S.Ans o → Bool) :
    Machine S Thread Shared Event where
  exec t o a s := if allows o a then M.exec t o a s else none
  event := M.event

theorem Machine.restrict_exec {o : S.Op} {a : S.Ans o} {s s' : Shared} :
    (M.restrict allows).exec t o a s = some s' ↔ allows o a = true ∧ M.exec t o a s = some s' :=
  Option.ite_none_right_eq_some

theorem CanFinish.unrestrict {post : α → Shared → Prop} {program : Program S α} {s : Shared}
    (h : CanFinish (M.restrict allows) t post program s) : CanFinish M t post program s := by
  induction program generalizing s with
  | done a => exact h
  | perform o next ih =>
      obtain ⟨a, s', hExec, hRest⟩ := h
      exact .op a (Machine.restrict_exec.mp hExec).2 (ih a hRest)

/-- A solo run there is one of the machine itself, and each of its answers was allowed. -/
theorem Solo.unrestrict {program : Program S α} {w w' : World Thread Shared Event} {r : α}
    (h : Solo (M.restrict allows) t program w r w') :
    Solo M t program w r w' ∧ ∀ e ∈ w'.trace, e ∈ w.trace ∨
      ∃ o a, allows o a = true ∧ e = (t, M.event o a) := by
  induction h with
  | done a w => exact ⟨.done a w, fun e hMem => Or.inl hMem⟩
  | @perform o next a w w' shared r hExec rest ih =>
      obtain ⟨hAllowed, hExec⟩ := Machine.restrict_exec.mp hExec
      obtain ⟨hSolo, hTrace⟩ := ih
      refine ⟨.perform hExec hSolo, fun e hMem => ?_⟩
      rcases hTrace e hMem with hBefore | hLater
      · rw [Machine.after_trace, List.mem_append, List.mem_singleton] at hBefore
        rcases hBefore with hOld | hHere
        · exact Or.inl hOld
        · exact Or.inr ⟨o, a, hAllowed, hHere⟩
      · exact Or.inr hLater

end Restrict

section Reach

variable {M : Machine S Thread Shared Event} {t : Thread} {w : World Thread Shared Event}

/-- What can be finished is finished by some solo run. -/
theorem CanFinish.solo {post : α → Shared → Prop} {program : Program S α}
    (h : CanFinish M t post program w.shared) :
    ∃ a w', Solo M t program w a w' ∧ post a w'.shared := by
  induction program generalizing w with
  | done a => exact ⟨a, w, .done a w, h⟩
  | perform o next ih =>
      obtain ⟨a, shared, hExec, hRest⟩ := h
      have hAfter : CanFinish M t post (next a) (M.after w t o a shared).shared := hRest
      obtain ⟨r, w', hSolo, hPost⟩ := ih a hAfter
      exact ⟨r, w', .perform hExec hSolo, hPost⟩

/-- A call that can be finished leads from one configuration at rest to another. -/
theorem CanFinish.complete_call [DecidableEq Thread] {post : Result → Shared → Prop}
    {body : Call → Program S Result} {k : Call} (h : CanFinish M t post (body k) w.shared) :
    ∃ r w', Execution.Reachable (Step M body) (Config.start w) (Config.start w') ∧
      post r w'.shared := by
  obtain ⟨r, w', hSolo, hPost⟩ := h.solo
  exact ⟨r, w', hSolo.complete_call, hPost⟩

end Reach

end Interleaving
