import ServiceKernel.Kernel.Custody
import ServiceKernel.Kernel.HookFailures
import ServiceKernel.Semantics.Chronicle

/-! What `Kernel::snapshot` sees while other threads boot, run and stop the kernel. It
reads the lifecycle, the health registry and the bookkeeping one after another,
so the three parts come from three moments. -/
namespace ServiceKernel

open Interleaving Execution

variable {Thread : Type}

namespace Stage

/-- How many subsystems are recorded as booted. -/
def booted (k : Kernel) : Stage → Nat
  | created => 0
  | forward .boot done => done
  | calling .boot done => done
  | recording .boot done => done
  | broken .boot done => done
  | failed .boot done => done
  | _ => k.subsystems.length

/-- The callback that failed, and the number of its subsystem. -/
def failure : Stage → Option (Callback × Nat)
  | broken c done => some (c, done)
  | failed c done => some (c, done)
  | closing true loaded _ => some (.load, loaded)
  | callingShutdown true loaded _ => some (.load, loaded)
  | _ => none

/-- The forward loops are those of boot and load. -/
def Proper : Stage → Prop
  | forward c _ => c ≠ .shutdown
  | calling c _ => c ≠ .shutdown
  | recording c _ => c ≠ .shutdown
  | broken c _ => c ≠ .shutdown
  | failed c _ => c ≠ .shutdown
  | _ => True

end Stage

/-- The callback of this subsystem has failed. -/
def FailedAt (k : Kernel) (c : Callback) (number : Nat) (trace : List (Thread × KernelRecord)) :
    Prop :=
  ∃ name t outcome, (Stage.names k)[number]? = some name ∧ outcome ≠ .ok ∧
    (t, .finished c name outcome) ∈ trace

/-- So many subsystems have a date: none, all, or those before the one that failed. -/
def Whole (k : Kernel) (c : Callback) (count : Nat) (trace : List (Thread × KernelRecord)) : Prop :=
  count = 0 ∨ count = k.subsystems.length ∨ FailedAt k c count trace

/-- The bookkeeping has these dates for the first subsystems in boot order. -/
structure SubsystemBookkeeping.Dates (k : Kernel) (book : SubsystemBookkeeping)
    (boots loads : List Instant) : Prop where
  numbered : book.id = (SubsystemBookkeeping.new k.subsystems).id
  dated : ∀ (i : Nat) (name : String), (Stage.names k)[i]? = some name →
    book.bootedAt.lookup name = boots[i]? ∧ book.loadedAt.lookup name = loads[i]?
  ordered : (boots ++ loads).Pairwise (· ≤ ·)
  booted_first : loads ≠ [] → boots.length = k.subsystems.length

section Dates

variable {k : Kernel} {book : SubsystemBookkeeping} {boots loads : List Instant} {now : Instant}
  {name : String} {done : Nat}

theorem FailedAt.mono {c : Callback} {trace : List (Thread × KernelRecord)}
    (h : FailedAt k c done trace) (e : Thread × KernelRecord) : FailedAt k c done (trace ++ [e]) := by
  obtain ⟨name, t, outcome, hName, hFailed, hMem⟩ := h
  exact ⟨name, t, outcome, hName, hFailed, List.mem_append_left _ hMem⟩

theorem ReturnedOk.mono {c : Callback} {trace : List (Thread × KernelRecord)}
    (h : ReturnedOk c name trace) (e : Thread × KernelRecord) : ReturnedOk c name (trace ++ [e]) :=
  h.imp fun _ => List.mem_append_left _

theorem Whole.mono {c : Callback} {trace : List (Thread × KernelRecord)} (h : Whole k c done trace)
    (e : Thread × KernelRecord) : Whole k c done (trace ++ [e]) := h.imp_right (Or.imp_right (·.mono e))

theorem pairwise_concat {times : List Instant} (h : times.Pairwise (· ≤ ·))
    (hNow : ∀ x ∈ times, x ≤ now) : (times ++ [now]).Pairwise (· ≤ ·) := by
  rw [List.pairwise_append]
  exact ⟨h, List.pairwise_singleton _ _, by simpa using hNow⟩

/-- A new date belongs to the next subsystem only. -/
theorem lookup_insert_next {table : AList fun _ : String => Instant} {dates : List Instant}
    (hNames : (Stage.names k).Nodup) (hNext : (Stage.names k)[dates.length]? = some name)
    (hTable : ∀ (i : Nat) (n : String), (Stage.names k)[i]? = some n → table.lookup n = dates[i]?)
    (i : Nat) {other : String} (hOther : (Stage.names k)[i]? = some other) :
    (table.insert name now).lookup other = (dates ++ [now])[i]? := by
  rcases eq_or_ne i dates.length with rfl | hne
  · obtain rfl := Option.some.inj (hNext.symm.trans hOther)
    simp
  · have hDiffers : other ≠ name := by
      rintro rfl
      obtain ⟨hLt, hAt⟩ := List.getElem?_eq_some_iff.mp hNext
      exact hne ((List.getElem?_inj hLt hNames).mp (hNext.trans hOther.symm)).symm
    rw [AList.lookup_insert_ne hDiffers, hTable i other hOther]
    rcases Nat.lt_or_gt_of_ne hne with hLt | hGt
    · rw [List.getElem?_append_left hLt]
    · rw [List.getElem?_eq_none (Nat.le_of_lt hGt), List.getElem?_eq_none (by simpa using Nat.succ_le_of_lt hGt)]

/-- While nothing is loaded the next subsystem may be recorded as booted. -/
theorem SubsystemBookkeeping.Dates.boot (h : book.Dates k boots []) (hNames : (Stage.names k).Nodup)
    (hNext : (Stage.names k)[boots.length]? = some name) (hNow : ∀ x ∈ boots ++ [], x ≤ now) :
    SubsystemBookkeeping.Dates k { book with bootedAt := book.bootedAt.insert name now }
      (boots ++ [now]) [] where
  numbered := h.numbered
  dated i other hOther := ⟨lookup_insert_next hNames hNext (fun i n hAt => (h.dated i n hAt).1) i hOther,
    (h.dated i other hOther).2⟩
  ordered := by
    have hOrdered := h.ordered
    rw [List.append_nil] at hOrdered hNow ⊢
    exact pairwise_concat hOrdered hNow
  booted_first hSome := absurd rfl hSome

theorem SubsystemBookkeeping.Dates.load (h : book.Dates k boots loads)
    (hNames : (Stage.names k).Nodup) (hBooted : boots.length = k.subsystems.length)
    (hNext : (Stage.names k)[loads.length]? = some name) (hNow : ∀ x ∈ boots ++ loads, x ≤ now) :
    SubsystemBookkeeping.Dates k { book with loadedAt := book.loadedAt.insert name now } boots
      (loads ++ [now]) where
  numbered := h.numbered
  dated i other hOther := ⟨(h.dated i other hOther).1,
    lookup_insert_next hNames hNext (fun i n hAt => (h.dated i n hAt).2) i hOther⟩
  ordered := by
    rw [← List.append_assoc]
    exact pairwise_concat h.ordered hNow
  booted_first _ := hBooted

end Dates

/-- The bookkeeping, the clock and the failures fit a stage. -/
structure Booked (k : Kernel) (stage : Stage) (w : KernelWorld Thread) : Prop where
  proper : stage.Proper
  dates : ∃ boots loads, w.shared.book.Dates k boots loads ∧ boots.length = stage.booted k ∧
    loads.length = stage.recorded k ∧ ∀ x ∈ boots ++ loads, x ≤ w.shared.clock
  failed : ∀ c number, stage.failure = some (c, number) → FailedAt k c number w.trace
  current : w.shared.lifecycle.lastTransition ≤ w.shared.clock

theorem booked_built (k : Kernel) (clock : Instant) :
    Booked k .created (KernelConfig.built Thread k clock).world where
  proper := trivial
  dates := by
    refine ⟨[], [], ⟨rfl, fun i name _ => ?_, List.Pairwise.nil, fun hSome => absurd rfl hSome⟩, rfl,
      rfl, by simp⟩
    exact ⟨rfl, rfl⟩
  failed c number hFailure := by cases hFailure
  current := Nat.le_refl _

/-- The operations that write dates. -/
def KernelOp.dates : KernelOp → Bool
  | .insertBooted _ => true
  | .insertLoaded _ => true
  | _ => false

section Step

variable {k : Kernel} {b : KernelBuilder} {stage stage' : Stage} {w : KernelWorld Thread} {t : Thread}
  {o : KernelOp} {a : KernelSig.Ans o} {shared s s' : KernelInner Thread} {done : Nat}

theorem kernelExec_book (h : kernelExec t o a s = some s') (hDates : o.dates = false) :
    s'.book = s.book := by
  cases kernelExec_effect h with
  | insertBooted | insertLoaded => cases hDates
  | _ => rfl

/-- The last transition is never later than the clock. -/
theorem kernelExec_current (h : kernelExec t o a s = some s')
    (hCurrent : s.lifecycle.lastTransition ≤ s.clock) : s'.lifecycle.lastTransition ≤ s'.clock := by
  have hClock := kernelExec_clock h
  cases kernelExec_effect h with
  | @lifecycle o a l hExec =>
      cases o with
      | checkAndSet toState =>
          cases a with
          | error e =>
              obtain ⟨-, -, rfl⟩ := lifecycle_refused hExec
              exact hCurrent
          | ok move =>
              obtain ⟨-, -, -, rfl⟩ := lifecycle_moved hExec
              exact Nat.le_refl _
      | _ =>
          obtain rfl := lifecycleExec_state hExec fun toState hMove => by cases hMove
          exact hCurrent
  | _ => exact Nat.le_trans hCurrent hClock

/-- What becomes of the dates at a stage that is reached without a new one. -/
structure Stage.SameDates (k : Kernel) (stage stage' : Stage) : Prop where
  proper : stage'.Proper
  booted : stage'.booted k = stage.booted k
  recorded : stage'.recorded k = stage.recorded k

theorem Stage.Moves.sameDates {toState : KernelState} (h : Stage.Moves k stage toState stage')
    (hValid : stage.Valid k) : Stage.SameDates k stage stage' ∧
      ∀ c number, stage'.failure = some (c, number) → stage.failure = some (c, number) := by
  cases h with
  | booted | loaded | stopping =>
      exact ⟨⟨by simp [Stage.Proper], rfl, rfl⟩, fun c number hFailure => by cases hFailure⟩
  | bootFailed | loadFailed =>
      exact ⟨⟨by simp [Stage.Proper], rfl, rfl⟩, fun c number hFailure => hFailure⟩
  | stopped =>
      obtain ⟨-, -, hLoaded⟩ := hValid
      exact ⟨⟨trivial, rfl, (hLoaded rfl).symm⟩, fun c number hFailure => by cases hFailure⟩

theorem Stage.Starts.sameDates {c : Callback} {s : Subsystem} (h : Stage.Starts k stage c s stage') :
    Stage.SameDates k stage stage' ∧
      ∀ c number, stage'.failure = some (c, number) → stage.failure = some (c, number) := by
  cases h with
  | @forward c done s hForward hNext =>
      refine ⟨⟨hForward, ?_, ?_⟩, fun c number hFailure => by cases hFailure⟩
      · cases c <;> rfl
      · cases c <;> rfl
  | @closing rollback loaded up s hNext =>
      refine ⟨⟨trivial, rfl, rfl⟩, fun c number hFailure => ?_⟩
      cases rollback <;> exact hFailure

theorem Stage.Finishes.sameDates {c : Callback} {s : Subsystem} {outcome : CallbackOutcome}
    (h : Stage.Finishes k stage c s outcome stage') : Stage.SameDates k stage stage' ∧
      ∀ c' number, stage'.failure = some (c', number) → stage.failure = some (c', number) ∨
        c' = c ∧ outcome ≠ .ok ∧ (Stage.names k)[number]? = some s.name := by
  cases h with
  | @ok c done s hForward hNext =>
      refine ⟨⟨hForward, ?_, ?_⟩, fun c' number hFailure => by cases hFailure⟩
      · cases c <;> rfl
      · cases c <;> rfl
  | @broken c done s outcome hForward hNext hFailed =>
      refine ⟨⟨hForward, ?_, ?_⟩, fun c' number hFailure => ?_⟩
      · cases c <;> rfl
      · cases c <;> rfl
      · obtain ⟨rfl, rfl⟩ := Prod.mk.inj (Option.some.inj hFailure)
        exact Or.inr ⟨rfl, hFailed, Stage.names_getElem? hNext⟩
  | @closing rollback loaded up s outcome hNext =>
      refine ⟨⟨trivial, rfl, rfl⟩, fun c' number hFailure => ?_⟩
      cases rollback <;> exact Or.inl hFailure

/-- The bookkeeping keeps up with a stage that has the same dates. -/
theorem Booked.same (h : Booked k stage w) (hExec : kernelExec t o a w.shared = some shared)
    (hDates : o.dates = false) (hSame : Stage.SameDates k stage stage')
    (hFailed : ∀ c number, stage'.failure = some (c, number) →
      stage.failure = some (c, number) ∨ FailedAt k c number (w.trace ++ [(t, kernelRecord o a)])) :
    Booked k stage' ((kernelMachine Thread).after w t o a shared) where
  proper := hSame.proper
  dates := by
    obtain ⟨boots, loads, hBook, hBoots, hLoads, hClock⟩ := h.dates
    refine ⟨boots, loads, ?_, hBoots.trans hSame.booted.symm, hLoads.trans hSame.recorded.symm,
      fun x hMem => Nat.le_trans (hClock x hMem) (kernelExec_clock hExec)⟩
    rw [Machine.after_shared, kernelExec_book hExec hDates]
    exact hBook
  failed c number hFailure := by
    rcases hFailed c number hFailure with hOld | hNew
    · exact (h.failed c number hOld).mono _
    · exact hNew
  current := kernelExec_current hExec h.current

theorem KernelOp.Neutral.dates (h : o.Neutral) : o.dates = false := by
  cases o with
  | insertBooted | insertLoaded => exact h.elim
  | _ => rfl

/-- A success of boot is recorded. -/
theorem Booked.records_boot (h : Booked k (.recording .boot done) w)
    (hNames : (Stage.names k).Nodup) {name : String} {now : Instant}
    (hNext : (Stage.names k)[done]? = some name)
    (hExec : kernelExec t (.insertBooted name) now w.shared = some shared) :
    Booked k (.forward .boot (done + 1))
      ((kernelMachine Thread).after w t (.insertBooted name) now shared) := by
  have hCurrent := kernelExec_current hExec h.current
  obtain ⟨boots, loads, hBook, rfl, hLoads, hClock⟩ := h.dates
  obtain rfl := List.eq_nil_of_length_eq_zero hLoads
  simp only [kernelExec, Option.ite_none_right_eq_some, Option.some.injEq] at hExec
  obtain ⟨hNow, rfl⟩ := hExec
  have hLater : ∀ x ∈ boots ++ [], x ≤ now := fun x hMem => Nat.le_trans (hClock x hMem) hNow
  refine ⟨h.proper, ⟨boots ++ [now], [], hBook.boot hNames hNext hLater, ?_, rfl, fun x hMem => ?_⟩,
    (fun c number hFailure => by cases hFailure), hCurrent⟩
  · simp [Stage.booted]
  · rw [List.append_nil, List.mem_append, List.mem_singleton] at hMem
    rcases hMem with hOld | rfl
    · exact hLater x (by simpa using hOld)
    · exact Nat.le_refl _

theorem Booked.records_load (h : Booked k (.recording .load done) w)
    (hNames : (Stage.names k).Nodup) {name : String} {now : Instant}
    (hNext : (Stage.names k)[done]? = some name)
    (hExec : kernelExec t (.insertLoaded name) now w.shared = some shared) :
    Booked k (.forward .load (done + 1))
      ((kernelMachine Thread).after w t (.insertLoaded name) now shared) := by
  have hCurrent := kernelExec_current hExec h.current
  obtain ⟨boots, loads, hBook, hBoots, rfl, hClock⟩ := h.dates
  simp only [kernelExec, Option.ite_none_right_eq_some, Option.some.injEq] at hExec
  obtain ⟨hNow, rfl⟩ := hExec
  have hLater : ∀ x ∈ boots ++ loads, x ≤ now := fun x hMem => Nat.le_trans (hClock x hMem) hNow
  refine ⟨h.proper, ⟨boots, loads ++ [now], hBook.load hNames hBoots hNext hLater, hBoots, ?_,
    fun x hMem => ?_⟩, (fun c number hFailure => by cases hFailure), hCurrent⟩
  · simp [Stage.recorded]
  · rw [← List.append_assoc, List.mem_append, List.mem_singleton] at hMem
    rcases hMem with hOld | rfl
    · exact hLater x hOld
    · exact Nat.le_refl _

theorem Booked.onward (h : Booked k stage w) (hValid : stage.Valid k)
    (hNames : (Stage.names k).Nodup) (hOnward : Stage.Onward k stage o a stage')
    (hExec : kernelExec t o a w.shared = some shared) :
    Booked k stage' ((kernelMachine Thread).after w t o a shared) := by
  cases hOnward with
  | moves hMove =>
      obtain ⟨hSame, hFailed⟩ := hMove.sameDates hValid
      exact h.same hExec rfl hSame fun c number hFailure => Or.inl (hFailed c number hFailure)
  | starts hStart =>
      obtain ⟨hSame, hFailed⟩ := hStart.sameDates
      exact h.same hExec rfl hSame fun c number hFailure => Or.inl (hFailed c number hFailure)
  | finishes hFinish =>
      obtain ⟨hSame, hFailed⟩ := hFinish.sameDates
      refine h.same hExec rfl hSame fun c number hFailure => ?_
      rcases hFailed c number hFailure with hOld | ⟨rfl, hOutcome, hName⟩
      · exact Or.inl hOld
      · exact Or.inr ⟨_, t, _, hName, hOutcome, by simp [kernelRecord]⟩
  | booted hNext => exact h.records_boot hNames hNext hExec
  | loaded hNext => exact h.records_load hNames hNext hExec
  | reads =>
      exact h.same hExec rfl ⟨trivial, rfl, rfl⟩ fun c number hFailure => Or.inl hFailure
  | exec hOp =>
      have hDates : o.dates = false := by cases o <;> first | rfl | cases hOp
      exact h.same hExec hDates ⟨trivial, rfl, rfl⟩ fun c number hFailure => by cases hFailure
  | stays hNeutral =>
      exact h.same hExec hNeutral.dates ⟨h.proper, rfl, rfl⟩ fun c number hFailure => Or.inl hFailure

end Step

/-- Every subsystem has a date. -/
def AllDated (k : Kernel) (table : AList fun _ : String => Instant) : Prop :=
  ∀ s ∈ k.subsystems, (table.lookup s.name).isSome

/-- The states that come after all boots, and after all loads. -/
def KernelState.afterBoot : KernelState → Bool
  | .loading => true
  | .running => true
  | .stopping => true
  | .stopped => true
  | _ => false

def KernelState.afterLoad : KernelState → Bool
  | .running => true
  | .stopping => true
  | .stopped => true
  | _ => false

/-- The lifecycle is not ahead of the bookkeeping. -/
def Abreast (k : Kernel) (state : KernelState) (book : SubsystemBookkeeping) : Prop :=
  (state.afterBoot = true → AllDated k book.bootedAt) ∧
    (state.afterLoad = true → AllDated k book.loadedAt)

/-- Every date belongs to a callback that has returned `Ok`. -/
def SubsystemBookkeeping.Backed (k : Kernel) (trace : List (Thread × KernelRecord))
    (book : SubsystemBookkeeping) : Prop :=
  ∀ s ∈ k.subsystems, ((book.bootedAt.lookup s.name).isSome → ReturnedOk .boot s.name trace) ∧
    ((book.loadedAt.lookup s.name).isSome → ReturnedOk .load s.name trace)

/-- What the bookkeeping says when nobody is in the middle of a loop. -/
structure SubsystemBookkeeping.Settled (k : Kernel) (trace : List (Thread × KernelRecord))
    (boots loads : List Instant) (book : SubsystemBookkeeping) : Prop where
  dates : book.Dates k boots loads
  booted : Whole k .boot boots.length trace
  loaded : Whole k .load loads.length trace
  backed : book.Backed k trace

section Book

variable {k : Kernel} {stage : Stage} {w : KernelWorld Thread} {t : Thread} {o : KernelOp}
  {a : KernelSig.Ans o} {s s' : KernelInner Thread} {book : SubsystemBookkeeping}
  {boots loads : List Instant} {trace : List (Thread × KernelRecord)}

theorem SubsystemBookkeeping.Dates.allBooted (h : book.Dates k boots loads)
    (hAll : boots.length = k.subsystems.length) : AllDated k book.bootedAt := by
  intro s hMem
  obtain ⟨i, hLt, rfl⟩ := List.getElem_of_mem hMem
  have hName : (Stage.names k)[i]? = some k.subsystems[i].name := by
    simp [Stage.names, hLt]
  rw [(h.dated i _ hName).1]
  simp [hAll, hLt]

theorem SubsystemBookkeeping.Dates.allLoaded (h : book.Dates k boots loads)
    (hAll : loads.length = k.subsystems.length) : AllDated k book.loadedAt := by
  intro s hMem
  obtain ⟨i, hLt, rfl⟩ := List.getElem_of_mem hMem
  have hName : (Stage.names k)[i]? = some k.subsystems[i].name := by
    simp [Stage.names, hLt]
  rw [(h.dated i _ hName).2]
  simp [hAll, hLt]

theorem Stage.booted_of_state (hProper : stage.Proper) (h : stage.state.afterBoot = true) :
    stage.booted k = k.subsystems.length := by
  cases stage with
  | created => cases h
  | forward c | calling c | recording c | broken c => cases c <;> first | rfl | cases h
  | failed c => cases h
  | _ => rfl

theorem Stage.recorded_of_state (hProper : stage.Proper) (hValid : stage.Valid k)
    (h : stage.state.afterLoad = true) : stage.recorded k = k.subsystems.length := by
  cases stage with
  | created => cases h
  | forward c | calling c | recording c | broken c =>
      cases c with
      | shutdown => exact absurd rfl hProper
      | boot | load => cases h
  | failed c => cases h
  | closing rollback | callingShutdown rollback =>
      cases rollback with
      | true => cases h
      | false => exact hValid.2.2 rfl
  | _ => rfl

theorem Booked.abreast (h : Booked k stage w) (hRecorded : Recorded k stage w) :
    Abreast k w.shared.lifecycle.state w.shared.book := by
  obtain ⟨boots, loads, hBook, hBoots, hLoads, -⟩ := h.dates
  rw [hRecorded.state]
  refine ⟨fun hState => hBook.allBooted ?_, fun hState => hBook.allLoaded ?_⟩
  · rw [hBoots, Stage.booted_of_state h.proper hState]
  · rw [hLoads, Stage.recorded_of_state h.proper hRecorded.valid hState]

/-- A subsystem is recorded as booted or loaded once its callback has returned `Ok`. -/
theorem Stage.recorded_succeeded (hProper : stage.Proper) :
    (Stage.names k).take (stage.booted k) ⊆ (stage.progress k).succeeded .boot ∧
      (Stage.names k).take (stage.recorded k) ⊆ (stage.progress k).succeeded .load := by
  cases stage with
  | created => exact ⟨by simp [booted], by simp [recorded]⟩
  | forward c done | calling c done | broken c done | failed c done =>
      cases c with
      | boot | load => exact ⟨List.Subset.refl _, List.Subset.refl _⟩
      | shutdown => exact absurd rfl hProper
  | recording c done =>
      have hNext := List.take_subset_take_left (Stage.names k) (Nat.le_succ done)
      cases c with
      | boot => exact ⟨hNext, List.Subset.refl _⟩
      | load => exact ⟨List.Subset.refl _, hNext⟩
      | shutdown => exact absurd rfl hProper
  | _ => exact ⟨List.Subset.refl _, List.Subset.refl _⟩

theorem Booked.backed (h : Booked k stage w) (hRecorded : Recorded k stage w) :
    w.shared.book.Backed k w.trace := by
  obtain ⟨boots, loads, hBook, hBoots, hLoads, -⟩ := h.dates
  intro s hMem
  obtain ⟨i, hAt⟩ := List.getElem?_of_mem hMem
  have hName := Stage.names_getElem? hAt
  obtain ⟨hBooted, hLoaded⟩ := hBook.dated i s.name hName
  have hReturned : ∀ (c : Callback) (times : List Instant), c ≠ .shutdown →
      (Stage.names k).take times.length ⊆ (stage.progress k).succeeded c →
      times[i]?.isSome → ReturnedOk c s.name w.trace := by
    intro c times hForward hSucceeded hDate
    rw [isSome_getElem?] at hDate
    rw [← mem_succeeded hForward, hRecorded.progress]
    exact hSucceeded (List.mem_of_getElem? ((List.getElem?_take_of_lt hDate).trans hName))
  obtain ⟨hBoot, hLoad⟩ := Stage.recorded_succeeded h.proper
  rw [← hBoots] at hBoot
  rw [← hLoads] at hLoad
  rw [hBooted, hLoaded]
  exact ⟨hReturned .boot boots (by decide) hBoot, hReturned .load loads (by decide) hLoad⟩

/-- Nothing takes a date away. -/
theorem Abreast.mono {state : KernelState} (h : Abreast k state s.book)
    (hExec : kernelExec t o a s = some s') : Abreast k state s'.book := by
  have hInsert : ∀ {table : AList fun _ : String => Instant} {name : String} {now : Instant},
      AllDated k table → AllDated k (table.insert name now) := by
    intro table name now hAll s hMem
    rcases eq_or_ne s.name name with hSame | hne
    · rw [hSame, AList.lookup_insert]
      rfl
    · rw [AList.lookup_insert_ne hne]
      exact hAll s hMem
  cases kernelExec_effect hExec with
  | insertBooted => exact ⟨fun hState => hInsert (h.1 hState), h.2⟩
  | insertLoaded => exact ⟨h.1, fun hState => hInsert (h.2 hState)⟩
  | _ => exact h

/-- Between two loops every phase is done, not begun, or broken off by a failure. -/
theorem Stage.whole (hValid : stage.Valid k) (hRest : stage.midway k = false) :
    (stage.booted k = 0 ∨ stage.booted k = k.subsystems.length ∨
        stage.failure = some (.boot, stage.booted k)) ∧
      (stage.recorded k = 0 ∨ stage.recorded k = k.subsystems.length ∨
        stage.failure = some (.load, stage.recorded k)) := by
  have hEnds : ∀ done, done ≤ k.subsystems.length → ¬ (0 < done ∧ done < k.subsystems.length) →
      done = 0 ∨ done = k.subsystems.length := by
    intro done hLe hNot
    omega
  cases stage with
  | created => exact ⟨Or.inl rfl, Or.inl rfl⟩
  | forward c done =>
      have hDone := hEnds done hValid (by simpa [midway] using hRest)
      cases c with
      | boot => exact ⟨hDone.imp_right Or.inl, Or.inl rfl⟩
      | load => exact ⟨Or.inr (Or.inl rfl), hDone.imp_right Or.inl⟩
      | shutdown => exact ⟨Or.inr (Or.inl rfl), Or.inl rfl⟩
  | calling | recording => cases hRest
  | broken c done | failed c done =>
      cases c with
      | boot => exact ⟨Or.inr (Or.inr rfl), Or.inl rfl⟩
      | load => exact ⟨Or.inr (Or.inl rfl), Or.inr (Or.inr rfl)⟩
      | shutdown => exact ⟨Or.inr (Or.inl rfl), Or.inl rfl⟩
  | closing rollback | callingShutdown rollback =>
      cases rollback with
      | true => exact ⟨Or.inr (Or.inl rfl), Or.inr (Or.inr rfl)⟩
      | false => exact ⟨Or.inr (Or.inl rfl), Or.inr (Or.inl (hValid.2.2 rfl))⟩
  | exec | stopped => exact ⟨Or.inr (Or.inl rfl), Or.inr (Or.inl rfl)⟩

theorem Booked.settled (h : Booked k stage w) (hRecorded : Recorded k stage w)
    (hRest : stage.midway k = false) : ∃ boots loads,
      w.shared.book.Settled k w.trace boots loads ∧ ∀ x ∈ boots ++ loads, x ≤ w.shared.clock := by
  obtain ⟨boots, loads, hBook, hBoots, hLoads, hClock⟩ := h.dates
  obtain ⟨hBooted, hLoaded⟩ := Stage.whole hRecorded.valid hRest
  rw [← hBoots] at hBooted
  rw [← hLoads] at hLoaded
  exact ⟨boots, loads, ⟨hBook, hBooted.imp_right (Or.imp_right (h.failed .boot _)),
    hLoaded.imp_right (Or.imp_right (h.failed .load _)), h.backed hRecorded⟩, hClock⟩

/-- What was settled stays so. -/
theorem SubsystemBookkeeping.Settled.mono (h : book.Settled k trace boots loads)
    (e : Thread × KernelRecord) : book.Settled k (trace ++ [e]) boots loads where
  dates := h.dates
  booted := h.booted.mono e
  loaded := h.loaded.mono e
  backed s hMem := ⟨fun hDate => ((h.backed s hMem).1 hDate).mono e,
    fun hDate => ((h.backed s hMem).2 hDate).mono e⟩

end Book

section System

variable {k : Kernel} {b : KernelBuilder}

theorem booked_kept (hBuilt : k.WellFormed b) :
    CustodyKeeps k fun (stage : Stage) (w : KernelWorld Thread) => Booked k stage w := by
  intro pos stage stage' w t o a shared h hBooked hExec hMove
  generalize (pos t).1 = place at hMove
  have hAside : ∀ {p : Position}, Position.next k .outside o a = some p → o.dates = false := by
    intro p hNext
    cases o with
    | insertBooted | insertLoaded => cases hNext
    | _ => rfl
  cases hMove with
  | aside hNext =>
      exact hBooked.same hExec (hAside hNext) ⟨hBooked.proper, rfl, rfl⟩
        fun c number hFailure => Or.inl hFailure
  | begins hNext =>
      exact hBooked.same hExec (hAside hNext) ⟨by simp [Stage.Proper], rfl, rfl⟩
        fun c number hFailure => by cases hFailure
  | inside hNext =>
      exact hBooked.onward h.orchestrated.recorded.valid hBuilt.distinct
        (Stage.onward_of_next hNext) hExec

/-- The reads that a snapshot is put together from. -/
abbrev looksAt (l : LifecycleSnapshot) : Deed KernelSig := ⟨.lifecycle .snapshot, l⟩

abbrev readsBook (book : SubsystemBookkeeping) : Deed KernelSig := ⟨.readBook, book⟩

abbrev readsClock (now : Instant) : Deed KernelSig := ⟨.now, now⟩

/-- No date is later than this. -/
def SubsystemBookkeeping.DatedBy (k : Kernel) (now : Instant) (book : SubsystemBookkeeping) : Prop :=
  ∀ s ∈ k.subsystems, ∀ x, book.bootedAt.lookup s.name = some x ∨ book.loadedAt.lookup s.name = some x →
    x ≤ now

/-- What a read owes to the reads before it. -/
structure ReadLaw (k : Kernel) (past : List (Thread × Deed KernelSig)) (d : Thread × Deed KernelSig) :
    Prop where
  abreast : ∀ book, d.2 = readsBook book → ∀ u l, (u, looksAt l) ∈ past → Abreast k l.state book
  current : ∀ now, d.2 = readsClock now → ∀ u l, (u, looksAt l) ∈ past → l.lastTransition ≤ now
  dated : ∀ now, d.2 = readsClock now → ∀ u book, (u, readsBook book) ∈ past → book.DatedBy k now

/-- What a run has read, compared with the kernel. -/
structure Seen (k : Kernel) (deeds : List (Thread × Deed KernelSig)) (w : KernelWorld Thread) : Prop
    where
  looked : ∀ u l, (u, looksAt l) ∈ deeds →
    Abreast k l.state w.shared.book ∧ l.lastTransition ≤ w.shared.clock
  read : ∀ u book, (u, readsBook book) ∈ deeds → ∃ boots loads,
    book.Settled k w.trace boots loads ∧ ∀ x ∈ boots ++ loads, x ≤ w.shared.clock
  lawful : Every (ReadLaw k) deeds

theorem kernelExec_looksAt {t : Thread} {l : LifecycleSnapshot} {s s' : KernelInner Thread}
    (h : kernelExec t (.lifecycle .snapshot) l s = some s') : l = s.lifecycle.snapshot := by
  obtain ⟨inner, hExec, -⟩ := KernelInner.withLifecycle_some.mp h
  exact (Option.ite_none_right_eq_some.mp hExec).1

theorem kernelExec_readsBook {t : Thread} {book : SubsystemBookkeeping} {s s' : KernelInner Thread}
    (h : kernelExec t .readBook book s = some s') : book = s.book :=
  (Option.ite_none_right_eq_some.mp h).1

theorem kernelExec_readsClock {t : Thread} {now : Instant} {s s' : KernelInner Thread}
    (h : kernelExec t .now now s = some s') : s.clock ≤ now :=
  (Option.ite_none_right_eq_some.mp h).1

theorem SubsystemBookkeeping.Dates.datedBy {book : SubsystemBookkeeping} {boots loads : List Instant}
    {now : Instant} (h : book.Dates k boots loads) (hNow : ∀ x ∈ boots ++ loads, x ≤ now) :
    book.DatedBy k now := by
  intro s hMem x hDate
  obtain ⟨i, hAt⟩ := List.getElem?_of_mem hMem
  obtain ⟨hBooted, hLoaded⟩ := h.dated i s.name (Stage.names_getElem? hAt)
  apply hNow
  rcases hDate with hDate | hDate
  · rw [hBooted] at hDate
    exact List.mem_append_left _ (List.mem_of_getElem? hDate)
  · rw [hLoaded] at hDate
    exact List.mem_append_right _ (List.mem_of_getElem? hDate)

variable [DecidableEq Thread] {clock : Instant} {c : KernelConfig Thread} {t : Thread}
  {history : List (Entry KernelSig Thread KernelCall KernelReturn)}

/-- Whatever has been read in a run was a settled account of it. -/
theorem seen_of_chronicle (hBuilt : k.WellFormed b)
    (h : Chronicle (kernelMachine Thread) (kernelBody k) (KernelConfig.built Thread k clock)
      history c) : Seen k (deedsOf history) c.world := by
  induction h with
  | start => exact ⟨(fun u l hMem => nomatch hMem), (fun u book hMem => nomatch hMem), every_nil⟩
  | began prior hIdle ih => simpa using ih
  | returned prior hRun ih => simpa using ih
  | @did history c t call o next a shared prior hRun hExec ih =>
      obtain ⟨pos, stage, hTyped, hCustody, hBooked⟩ :=
        custody_of_reachable hBuilt (booked_kept hBuilt) (booked_built k clock) prior.reachable
      have hRecorded := hCustody.orchestrated.recorded
      have hTake : kernelExec t o a c.world.shared = some shared := hExec
      have hClock := kernelExec_clock hTake
      have hNew : ∀ {u : Thread} {d : Deed KernelSig}, (u, d) ∈ deedsOf history ++ [(t, ⟨o, a⟩)] →
          (u, d) ∈ deedsOf history ∨ d = ⟨o, a⟩ := by
        intro u d hMem
        rcases List.mem_append.mp hMem with hOld | hLast
        · exact Or.inl hOld
        · exact Or.inr (Prod.mk.inj (List.mem_singleton.mp hLast)).2
      rw [deedsOf_did]
      refine ⟨fun u l hMem => ?_, fun u book hMem => ?_, every_concat.mpr ⟨ih.lawful, ?_, ?_, ?_⟩⟩
      · rcases hNew hMem with hOld | hLast
        · obtain ⟨hAbreast, hCurrent⟩ := ih.looked u l hOld
          exact ⟨hAbreast.mono hTake, Nat.le_trans hCurrent hClock⟩
        · cases hLast
          obtain rfl := kernelExec_looksAt hTake
          have hAbreast : Abreast k c.world.shared.lifecycle.state shared.book :=
            (hBooked.abreast hRecorded).mono hTake
          exact ⟨hAbreast, Nat.le_trans hBooked.current hClock⟩
      · rcases hNew hMem with hOld | hLast
        · obtain ⟨boots, loads, hSettled, hBound⟩ := ih.read u book hOld
          exact ⟨boots, loads, hSettled.mono _, fun x hX => Nat.le_trans (hBound x hX) hClock⟩
        · cases hLast
          obtain rfl := kernelExec_readsBook hTake
          obtain ⟨boots, loads, hSettled, hBound⟩ :=
            hBooked.settled hRecorded (settled_of_readBook hTyped hCustody hRun)
          exact ⟨boots, loads, hSettled.mono _, fun x hX => Nat.le_trans (hBound x hX) hClock⟩
      · rintro book hRead u l hMem
        cases hRead
        obtain rfl := kernelExec_readsBook hTake
        exact (ih.looked u l hMem).1
      · rintro now hRead u l hMem
        cases hRead
        exact Nat.le_trans (ih.looked u l hMem).2 (kernelExec_readsClock hTake)
      · rintro now hRead u book hMem
        cases hRead
        obtain ⟨boots, loads, hSettled, hBound⟩ := ih.read u book hMem
        exact hSettled.dates.datedBy fun x hX =>
          Nat.le_trans (hBound x hX) (kernelExec_readsClock hTake)

/-- The parts of a snapshot fit together: every row is that of a subsystem, the dates come
in boot order and are those of callbacks that have returned `Ok`, none is missing but for
a failure, and the lifecycle, which was read first, is not ahead of them. -/
structure KernelSnapshot.Coherent (k : Kernel) (trace : List (Thread × KernelRecord))
    (snap : KernelSnapshot) : Prop where
  named : snap.name = k.name
  rows : List.Forall₂ (fun row s => row.name = s.name ∧ row.dependencies = s.dependencies)
    snap.subsystems k.subsystems
  numbered : ∀ (i : Nat) row, snap.subsystems[i]? = some row → row.id = UInt64.ofNat i
  dated : ∃ boots loads : List Instant,
    (∀ (i : Nat) row, snap.subsystems[i]? = some row →
      row.bootedAt = boots[i]? ∧ row.loadedAt = loads[i]?) ∧
    (boots ++ loads ++ [snap.timestamp]).Pairwise (· ≤ ·) ∧
    Whole k .boot boots.length trace ∧ Whole k .load loads.length trace ∧
    (loads ≠ [] → boots.length = k.subsystems.length)
  finished : ∀ row ∈ snap.subsystems,
    (row.bootedAt.isSome → ReturnedOk .boot row.name trace) ∧
    (row.loadedAt.isSome → ReturnedOk .load row.name trace)
  afterBoot : snap.lifecycle.state.afterBoot = true → ∀ row ∈ snap.subsystems, row.bootedAt.isSome
  afterLoad : snap.lifecycle.state.afterLoad = true → ∀ row ∈ snap.subsystems, row.loadedAt.isSome
  current : snap.lifecycle.lastTransition ≤ snap.timestamp

section Rows

variable {book : SubsystemBookkeeping} {deeds : List (Deed KernelSig)} {name : String}
  {snap : KernelSnapshot}

omit [DecidableEq Thread] in
theorem path_collectSnapshots {subsystems : List Subsystem} {rows : List SubsystemSnapshot}
    (h : (collectSnapshots book subsystems).Path deeds (some rows)) :
    List.Forall₂ (fun row s => row = book.snapshot s row.health) rows subsystems := by
  induction subsystems generalizing deeds rows with
  | nil =>
      obtain ⟨-, hRows⟩ := Program.path_done_iff.mp h
      cases hRows
      exact List.Forall₂.nil
  | cons s rest ih =>
      obtain ⟨health, later, rfl, hHealth⟩ := Program.path_perform_iff.mp h
      cases health with
      | none => cases (Program.path_done_iff.mp hHealth).2
      | some health =>
          obtain ⟨first, last, collected, rfl, hFirst, hLast⟩ :=
            (Program.path_bind_iff (p := collectSnapshots book rest)).mp hHealth
          cases collected with
          | none => cases (Program.path_done_iff.mp hLast).2
          | some collected =>
              cases (Program.path_done_iff.mp hLast).2
              exact List.Forall₂.cons rfl (ih hFirst)

omit [DecidableEq Thread] in
/-- What a snapshot is put together from, in the order of the reads. -/
theorem path_snapshot (h : (kernelBody k .snapshot).Path deeds (.snapshot (some snap))) :
    ∃ book, [looksAt snap.lifecycle, readsBook book, readsClock snap.timestamp].Sublist deeds ∧
      snap.name = k.name ∧
      List.Forall₂ (fun row s => row = book.snapshot s row.health) snap.subsystems k.subsystems := by
  obtain ⟨whole, last, result, rfl, hWhole, hLast⟩ := Program.path_bind_iff.mp h
  obtain ⟨rfl, hResult⟩ := Program.path_done_iff.mp hLast
  cases hResult
  obtain ⟨lifecycle, _, rfl, hHealth⟩ := Program.path_perform_iff.mp hWhole
  obtain ⟨health, later, rfl, hLater⟩ := Program.path_perform_iff.mp hHealth
  obtain ⟨first, final, rows, rfl, hRows, hFinal⟩ :=
    (Program.path_bind_iff (p := subsystemSnapshots k)).mp hLater
  cases rows with
  | none => cases (Program.path_done_iff.mp hFinal).2
  | some rows =>
      obtain ⟨now, _, rfl, hEnd⟩ := Program.path_perform_iff.mp hFinal
      obtain ⟨rfl, hSnap⟩ := Program.path_done_iff.mp hEnd
      cases hSnap
      obtain ⟨_, _, rfl, hSecond⟩ := Program.path_perform_iff.mp hRows
      obtain ⟨_, _, rfl, hRead⟩ := Program.path_perform_iff.mp hSecond
      obtain ⟨book, _, rfl, hCollect⟩ := Program.path_perform_iff.mp hRead
      obtain ⟨middle, unlocks, collected, rfl, hCollected, hUnlocks⟩ :=
        (Program.path_bind_iff (p := collectSnapshots book k.subsystems)).mp hCollect
      obtain ⟨_, _, rfl, hUnlock⟩ := Program.path_perform_iff.mp hUnlocks
      obtain ⟨_, _, rfl, hDone⟩ := Program.path_perform_iff.mp hUnlock
      obtain ⟨rfl, hSame⟩ := Program.path_done_iff.mp hDone
      cases hSame
      refine ⟨book, ?_, rfl, path_collectSnapshots hCollected⟩
      have hNow : [readsClock now].Sublist (middle ++ [⟨.unlock .subsystems, ()⟩,
          ⟨.unlock .bookkeeping, ()⟩] ++ [readsClock now]) := List.sublist_append_right _ _
      rw [List.append_nil]
      exact ((((hNow.cons_cons _).cons _).cons _).cons _).cons_cons _

end Rows

/-- `from_inner` numbers the subsystems in boot order. -/
theorem numbered_new {names : List String} {subsystems : List Subsystem}
    (hNames : subsystems.map Subsystem.name = names) (hNodup : names.Nodup) {i : Nat} {name : String}
    (hAt : names[i]? = some name) :
    (SubsystemBookkeeping.new subsystems).id.lookup name = some (UInt64.ofNat i) := by
  have hFold : ∀ (rest : List Subsystem) (ids : AList fun _ : String => UInt64) (next : UInt64),
      (rest.map Subsystem.name).Nodup →
      (∀ (i : Nat) (name : String), (rest.map Subsystem.name)[i]? = some name →
        (rest.foldl (fun p s => (p.1.insert s.name p.2, p.2 + 1)) (ids, next)).1.lookup
          name = some (next + UInt64.ofNat i)) ∧
      ∀ name, name ∉ rest.map Subsystem.name →
        (rest.foldl (fun p s => (p.1.insert s.name p.2, p.2 + 1)) (ids, next)).1.lookup
          name = ids.lookup name := by
    intro rest
    induction rest with
    | nil => exact fun ids next _ => ⟨fun i name hName => by simp at hName, fun name _ => rfl⟩
    | cons s rest ih =>
        intro ids next hDistinct
        obtain ⟨hFresh, hRest⟩ := List.nodup_cons.mp hDistinct
        obtain ⟨hLater, hOther⟩ := ih (ids.insert s.name next) (next + 1) hRest
        refine ⟨fun i name hName => ?_, fun name hNot => ?_⟩
        · cases i with
          | zero =>
              obtain rfl : s.name = name := by simpa using hName
              simp [hOther s.name hFresh]
          | succ i =>
              have hFound := hLater i name (by simpa using hName)
              rw [List.foldl_cons, hFound, UInt64.ofNat_add, UInt64.add_assoc, UInt64.add_comm 1]
              rfl
        · rw [List.map_cons, List.mem_cons, not_or] at hNot
          rw [List.foldl_cons, hOther name hNot.2, AList.lookup_insert_ne hNot.1]
  subst hNames
  have hFound := (hFold subsystems ∅ 0 hNodup).1 i name hAt
  rw [UInt64.zero_add] at hFound
  exact hFound

omit [DecidableEq Thread] in
theorem Whole.le {cb : Callback} {count : Nat} {trace : List (Thread × KernelRecord)}
    (h : Whole k cb count trace) : count ≤ k.subsystems.length := by
  rcases h with rfl | rfl | ⟨name, -, -, hName, -⟩
  · exact Nat.zero_le _
  · exact Nat.le_refl _
  · obtain ⟨hLt, -⟩ := List.getElem?_eq_some_iff.mp hName
    rw [Stage.length_names] at hLt
    exact Nat.le_of_lt hLt

omit [DecidableEq Thread] in
theorem SubsystemBookkeeping.Settled.bound {book : SubsystemBookkeeping} {boots loads : List Instant}
    {now : Instant} {trace : List (Thread × KernelRecord)} (h : book.Settled k trace boots loads)
    (hDated : book.DatedBy k now) : ∀ x ∈ boots ++ loads, x ≤ now := by
  intro x hMem
  have hAt : ∀ i < k.subsystems.length, boots[i]? = some x ∨ loads[i]? = some x → x ≤ now := by
    intro i hLt hDate
    have hName : (Stage.names k)[i]? = some k.subsystems[i].name := by simp [Stage.names, hLt]
    obtain ⟨hBooted, hLoaded⟩ := h.dates.dated i _ hName
    rw [← hBooted, ← hLoaded] at hDate
    exact hDated _ (List.getElem_mem hLt) x hDate
  rcases List.mem_append.mp hMem with hBoot | hLoad
  · obtain ⟨i, hLt, rfl⟩ := List.getElem_of_mem hBoot
    exact hAt i (Nat.lt_of_lt_of_le hLt h.booted.le) (Or.inl (List.getElem?_eq_getElem hLt))
  · obtain ⟨i, hLt, rfl⟩ := List.getElem_of_mem hLoad
    exact hAt i (Nat.lt_of_lt_of_le hLt h.loaded.le) (Or.inr (List.getElem?_eq_getElem hLt))

/-- However the calls of any number of threads interleave and however the callbacks end,
the snapshots that a kernel returns are coherent. -/
theorem snapshot_coherent (hBuild : b.build = .ok k)
    (reach : Reachable (KernelStep Thread k) (KernelConfig.built Thread k clock) c)
    {snap : KernelSnapshot} (hDone : c.threads t = .running .snapshot (.done (.snapshot (some snap)))) :
    snap.Coherent k c.world.trace := by
  have hBuilt := build_wellFormed hBuild
  obtain ⟨history, h⟩ := exists_chronicle reach
  have hSeen := seen_of_chronicle hBuilt h
  obtain ⟨book, hReads, hNamed, hRows⟩ :=
    path_snapshot ((h.midway t).2 .snapshot _ hDone [] _ (.done _))
  rw [List.append_nil] at hReads
  have hOrder : [(t, looksAt snap.lifecycle), (t, readsBook book),
      (t, readsClock snap.timestamp)].Sublist (deedsOf history) :=
    (hReads.map fun deed => (t, deed)).trans (h.pending_sublist t)
  -- what each read owes to the one before it
  obtain ⟨past, hLooked, hBookLaw⟩ := hSeen.lawful.of_pair
    ((List.Sublist.cons_cons _ ((List.nil_sublist _).cons_cons _)).trans hOrder)
  obtain ⟨hBooted, hLoaded⟩ := hBookLaw.abreast book rfl t _ hLooked
  obtain ⟨past', hRead, hClockLaw⟩ := hSeen.lawful.of_pair ((List.sublist_cons_self _ _).trans hOrder)
  obtain ⟨past'', hLooked', hClockLaw'⟩ := hSeen.lawful.of_pair
    ((List.Sublist.cons_cons _ (List.sublist_cons_self _ _)).trans hOrder)
  obtain ⟨boots, loads, hSettled, -⟩ := hSeen.read t book (hOrder.subset (by simp))
  have hRow : ∀ (i : Nat) row, snap.subsystems[i]? = some row →
      ∃ s, k.subsystems[i]? = some s ∧ row = book.snapshot s row.health := by
    intro i row hAt
    obtain ⟨hLength, hAll⟩ := List.forall₂_iff_get.mp hRows
    obtain ⟨hLt, rfl⟩ := List.getElem?_eq_some_iff.mp hAt
    exact ⟨_, List.getElem?_eq_getElem (hLength ▸ hLt), hAll i hLt (hLength ▸ hLt)⟩
  have hOf : ∀ row ∈ snap.subsystems, ∃ s ∈ k.subsystems, row = book.snapshot s row.health := by
    intro row hMem
    obtain ⟨i, hAt⟩ := List.getElem?_of_mem hMem
    obtain ⟨s, hS, hSame⟩ := hRow i row hAt
    exact ⟨s, List.mem_of_getElem? hS, hSame⟩
  refine ⟨hNamed, hRows.imp fun row s hSame => ?_, fun i row hAt => ?_, ?_, fun row hMem => ?_,
    fun hState row hMem => ?_, fun hState row hMem => ?_, hClockLaw'.current _ rfl t _ hLooked'⟩
  · rw [hSame]
    exact ⟨rfl, rfl⟩
  · obtain ⟨s, hS, hSame⟩ := hRow i row hAt
    rw [hSame, SubsystemBookkeeping.snapshot, hSettled.dates.numbered,
      numbered_new rfl hBuilt.distinct (Stage.names_getElem? hS)]
    rfl
  · refine ⟨boots, loads, fun i row hAt => ?_, ?_, hSettled.booted, hSettled.loaded,
      hSettled.dates.booted_first⟩
    · obtain ⟨s, hS, hSame⟩ := hRow i row hAt
      rw [hSame]
      exact hSettled.dates.dated i s.name (Stage.names_getElem? hS)
    · exact pairwise_concat hSettled.dates.ordered
        (hSettled.bound (hClockLaw.dated _ rfl t book hRead))
  · obtain ⟨s, hS, hSame⟩ := hOf row hMem
    rw [hSame]
    exact hSettled.backed s hS
  · obtain ⟨s, hS, hSame⟩ := hOf row hMem
    rw [hSame]
    exact hBooted hState s hS
  · obtain ⟨s, hS, hSame⟩ := hOf row hMem
    rw [hSame]
    exact hLoaded hState s hS

/-- The snapshot that a thread's call has made. -/
def KernelConfig.snapped (c : KernelConfig Thread) (t : Thread) : Option KernelSnapshot :=
  match c.threads t with
  | .running .snapshot (.done (.snapshot snap)) => snap
  | _ => none

omit [DecidableEq Thread] in
theorem KernelConfig.snapped_eq_some {snap : KernelSnapshot} (h : c.snapped t = some snap) :
    c.threads t = .running .snapshot (.done (.snapshot (some snap))) := by
  unfold snapped at h
  split at h
  · rename_i hThread
    rw [hThread, h]
  · cases h

/-- A kernel boots after the snapshot has read the lifecycle: the state is old, the rows are new. -/
theorem snapshot_coherent_overtaken :
    ∃ k, (KernelBuilder.new "service").build = .ok k ∧
      ∃ (c : KernelConfig Bool) (snap : KernelSnapshot), snap.lifecycle.state = .created ∧
        (snap.subsystems.all fun row => row.loadedAt.isSome) = true ∧
        snap.Coherent k c.world.trace := by
  have hPlays : Environment.calm.plays (KernelBuilder.new "service")
      ((.call true .snapshot :: .go true :: .call false .boot :: List.replicate 86 (.go false)) ++
        List.replicate 14 (.go true))
      (fun c => (c.snapped true).any fun snap => snap.lifecycle.state = .created ∧
        (snap.subsystems.all fun row => row.loadedAt.isSome) = true) = true := by
    decide +kernel
  obtain ⟨k, hBuild, c, reach, hAsk⟩ := Environment.reachable_of_plays hPlays
  obtain ⟨snap, hSnapped, hSees⟩ := (Option.any_eq_true _ _).mp hAsk
  obtain ⟨hState, hRows⟩ := of_decide_eq_true hSees
  exact ⟨k, hBuild, c, snap, hState, hRows,
    snapshot_coherent hBuild reach (KernelConfig.snapped_eq_some hSnapped)⟩

end System

end ServiceKernel
