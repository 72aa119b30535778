import ServiceKernel.Events.Stages

/-! Runs of the dispatcher under any number of threads. At rest the two maps agree, an
id is granted to one unsubscribe only, and an emit invokes what the routes had at
its lookup. -/
namespace ServiceKernel

open Interleaving Execution

section Paths

variable {Handler : Type} {deeds : List (Deed (DispatcherSig Handler))} {r : DispatcherResult}
  {topic : String} {handler : Handler} {id : SubscriptionId}

theorem path_subscribe (h : (DispatcherCall.subscribe topic handler).body.Path deeds r) :
    ∃ id : SubscriptionId, deeds = [⟨.drawId, id⟩, ⟨.insertRoute topic id handler, ()⟩,
      ⟨.insertIndex id topic, ()⟩] ∧ r = .issued id := by
  obtain ⟨id, _, rfl, hRoute⟩ := Program.path_perform_iff.mp h
  obtain ⟨_, _, rfl, hIndex⟩ := Program.path_perform_iff.mp hRoute
  obtain ⟨_, _, rfl, hEnd⟩ := Program.path_perform_iff.mp hIndex
  obtain ⟨rfl, rfl⟩ := Program.path_done_iff.mp hEnd
  exact ⟨id, rfl, rfl⟩

theorem path_unsubscribe (h : (DispatcherCall.unsubscribe id : DispatcherCall Handler).body.Path deeds r) :
    (deeds = [⟨.removeIndex id, none⟩] ∧ r = .removed false) ∨
      ∃ (topic : String) (answer : Bool), deeds = [⟨.removeIndex id, some topic⟩,
        ⟨.removeRoute topic id, answer⟩] ∧ r = .removed answer := by
  obtain ⟨found, _, rfl, hRest⟩ := Program.path_perform_iff.mp h
  cases found with
  | none =>
      obtain ⟨rfl, rfl⟩ := Program.path_done_iff.mp hRest
      exact Or.inl ⟨rfl, rfl⟩
  | some topic =>
      obtain ⟨answer, _, rfl, hEnd⟩ := Program.path_perform_iff.mp hRest
      obtain ⟨rfl, rfl⟩ := Program.path_done_iff.mp hEnd
      exact Or.inr ⟨topic, answer, rfl, rfl⟩

theorem path_invokeAll {registrations : List (Registration Handler)}
    (h : (DispatcherSteps.invokeAll registrations >>= fun _ =>
      (pure .emitted : Program (DispatcherSig Handler) DispatcherResult)).Path deeds r) :
    deeds = registrations.map (fun registration => ⟨.invoke registration, ()⟩) ∧ r = .emitted := by
  induction registrations generalizing deeds with
  | nil =>
      obtain ⟨rfl, rfl⟩ := Program.path_done_iff.mp h
      exact ⟨rfl, rfl⟩
  | cons registration rest ih =>
      obtain ⟨_, _, rfl, hRest⟩ := Program.path_perform_iff.mp h
      obtain ⟨rfl, rfl⟩ := ih hRest
      exact ⟨rfl, rfl⟩

theorem path_emit (h : (DispatcherCall.emit topic : DispatcherCall Handler).body.Path deeds r) :
    ∃ registrations : List (Registration Handler), deeds = ⟨.lookup topic, registrations⟩ ::
      registrations.map (fun registration => ⟨.invoke registration, ()⟩) ∧ r = .emitted := by
  obtain ⟨registrations, _, rfl, hRest⟩ := Program.path_perform_iff.mp h
  obtain ⟨rfl, rfl⟩ := path_invokeAll hRest
  exact ⟨registrations, rfl, rfl⟩

variable {call : DispatcherCall Handler} {before after : List (Deed (DispatcherSig Handler))}

/-- Only an emit looks up, first thing, and then invokes what it found. -/
theorem path_of_lookup {registrations : List (Registration Handler)}
    (h : call.body.Path (before ++ ⟨.lookup topic, registrations⟩ :: after) r) :
    before = [] ∧ after = registrations.map fun registration => ⟨.invoke registration, ()⟩ := by
  generalize hWhole : before ++ ⟨.lookup topic, registrations⟩ :: after = deeds at h
  have hMem : (⟨.lookup topic, registrations⟩ : Deed (DispatcherSig Handler)) ∈ deeds := by
    simp [← hWhole]
  cases call with
  | subscribe topic handler =>
      obtain ⟨id, rfl, -⟩ := path_subscribe h
      simp at hMem
  | unsubscribe id =>
      rcases path_unsubscribe h with ⟨rfl, -⟩ | ⟨topic, answer, rfl, -⟩ <;> simp at hMem
  | emit other =>
      obtain ⟨found, rfl, -⟩ := path_emit h
      rcases List.append_eq_cons_iff.mp hWhole with ⟨rfl, hSame⟩ | ⟨earlier, rfl, hRest⟩
      · obtain ⟨hHead, hTail⟩ := List.cons.inj hSame
        cases hHead
        exact ⟨rfl, hTail⟩
      · have hLater : (⟨.lookup topic, registrations⟩ : Deed (DispatcherSig Handler)) ∈
            found.map fun registration => ⟨.invoke registration, ()⟩ := by
          rw [hRest]
          exact List.mem_append_right _ List.mem_cons_self
        simp at hLater

/-- Only an unsubscribe of the id removes it from the index. -/
theorem path_of_removeIndex {found : Option String} (h : call.body.Path deeds r)
    (hMem : (⟨.removeIndex id, found⟩ : Deed (DispatcherSig Handler)) ∈ deeds) :
    call = .unsubscribe id := by
  cases call with
  | subscribe topic handler =>
      obtain ⟨id, rfl, -⟩ := path_subscribe h
      simp at hMem
  | unsubscribe other =>
      rcases path_unsubscribe h with ⟨rfl, -⟩ | ⟨topic, answer, rfl, -⟩ <;> simp at hMem <;>
        rw [hMem.1]
  | emit topic =>
      obtain ⟨found, rfl, -⟩ := path_emit h
      simp at hMem

theorem path_of_insertIndex (h : call.body.Path deeds r)
    (hMem : (⟨.insertIndex id topic, ()⟩ : Deed (DispatcherSig Handler)) ∈ deeds) :
    ∃ handler, call = .subscribe topic handler ∧ r = .issued id := by
  cases call with
  | subscribe topic handler =>
      obtain ⟨id, rfl, rfl⟩ := path_subscribe h
      simp at hMem
      obtain ⟨rfl, rfl⟩ := hMem
      exact ⟨handler, rfl, rfl⟩
  | unsubscribe other =>
      rcases path_unsubscribe h with ⟨rfl, -⟩ | ⟨topic, answer, rfl, -⟩ <;> simp at hMem
  | emit topic =>
      obtain ⟨found, rfl, -⟩ := path_emit h
      simp at hMem

end Paths

section Runs

variable {Thread Handler : Type} [DecidableEq Thread] [DecidableEq Handler]

abbrev DispatcherConfig (Thread Handler : Type) :=
  Config (DispatcherSig Handler) Thread (Dispatcher Handler) (Deed (DispatcherSig Handler))
    (DispatcherCall Handler) DispatcherResult

abbrev DispatcherEntry (Thread Handler : Type) :=
  Entry (DispatcherSig Handler) Thread (DispatcherCall Handler) DispatcherResult

abbrev DispatcherReturn (Thread Handler : Type) :=
  Completed (DispatcherSig Handler) Thread (DispatcherCall Handler) DispatcherResult

/-- No call in progress on a new dispatcher. -/
def DispatcherConfig.new (Thread Handler : Type) : DispatcherConfig Thread Handler :=
  .start ⟨.new, []⟩

/-- A run of a dispatcher from the start. -/
abbrev DispatcherRun (history : List (DispatcherEntry Thread Handler))
    (c : DispatcherConfig Thread Handler) : Prop :=
  Chronicle (dispatcherMachine Thread Handler) DispatcherCall.body
    (DispatcherConfig.new Thread Handler) history c

/-- Nobody unsubscribes an id before the subscribe that issued it has returned. -/
def UsedAfterReturn (history : List (DispatcherEntry Thread Handler)) : Prop :=
  ∀ before t id after, history = before ++ .began t (.unsubscribe id) :: after →
    ∃ u topic handler, .returned u (.subscribe topic handler) (.issued id) ∈ before

def invocation (d : Deed (DispatcherSig Handler)) : Option (Registration Handler) :=
  match d with
  | ⟨.invoke registration, _⟩ => some registration
  | _ => none

/-- What a thread invokes in what is left of its call. -/
def invokedBy (t : Thread) (later : List (DispatcherEntry Thread Handler)) :
    List (Registration Handler) :=
  (deedsBy t (restOfCall t later)).filterMap invocation

/-- Within a call, all of whose entries these are, the thread looks the topic up once, before
it does anything else, and then invokes what it found. -/
def LooksUpOnce (t : Thread) (topic : String) (inside : List (DispatcherEntry Thread Handler)) :
    Prop :=
  (∃ (between later : List (DispatcherEntry Thread Handler))
      (registrations : List (Registration Handler)),
    inside = between ++ .did t (.lookup topic) registrations :: later ∧ deedsBy t between = [] ∧
    deedsBy t later = registrations.map fun registration => ⟨.invoke registration, ()⟩) ∧
  (∀ k, .began t k ∉ inside) ∧ ∀ k r, .returned t k r ∉ inside

/-- An unsubscribe of this id that returned true. -/
def grants (id : SubscriptionId) (call : DispatcherReturn Thread Handler) : Bool :=
  match call.call, call.result with
  | .unsubscribe other, .removed answer => other == id && answer
  | _, _ => false

variable {history : List (DispatcherEntry Thread Handler)} {c : DispatcherConfig Thread Handler}
  {t : Thread} {topic : String} {id : SubscriptionId} {handler : Handler}

theorem DispatcherRun.books (h : DispatcherRun history c) (hRoom : draws (deedsOf history) ≤ 2 ^ 64) :
    ∃ stage pos, Books stage pos c.world ∧ IdLedger stage (deedsOf history) ∧
      (c.Quiescent → ∀ t, pos t = .rest) := by
  have hTrace : c.world.trace = deedsOf history := by
    rw [h.trace]
    simp [DispatcherConfig.new, Config.start, dispatcherMachine]
  have hStart : (dispatcherTypestate Thread Handler).Typed (fun _ => .rest)
      (DispatcherConfig.new Thread Handler) := Typestate.typed_start inStages_new
  obtain ⟨pos, hTyped⟩ := Typestate.typed_of_reachable hStart h.reachable
  have hInv : InStages pos c.world := hTyped.1
  obtain ⟨stage, hBooks⟩ := hInv.books (by rwa [hTrace])
  exact ⟨stage, pos, hBooks, hTrace ▸ hBooks.ledger, fun hQuiet t => hTyped.idle (hQuiet t)⟩

/-- What a subscribe has done by the time it returns. -/
theorem DispatcherRun.subscribed (h : DispatcherRun history c) {call : DispatcherReturn Thread Handler}
    (hCall : call ∈ completedOf history) (hKind : call.call = .subscribe topic handler)
    (hResult : call.result = .issued id) :
    (call.thread, ⟨.insertRoute topic id handler, ()⟩) ∈ deedsOf history ∧
      (call.thread, ⟨.insertIndex id topic, ()⟩) ∈ deedsOf history := by
  have hPath := h.completed_path call hCall
  rw [hKind, hResult] at hPath
  obtain ⟨id, hDeeds, hId⟩ := path_subscribe hPath
  cases hId
  exact ⟨h.of_completed hCall (by simp [hDeeds]), h.of_completed hCall (by simp [hDeeds])⟩

/-- What an unsubscribe has done when it returns true. -/
theorem DispatcherRun.removed (h : DispatcherRun history c)
    (hReturned : .returned t (.unsubscribe id) (.removed true) ∈ history) :
    ∃ u topic, (u, ⟨.removeRoute topic id, true⟩) ∈ deedsOf history := by
  obtain ⟨call, hCall, -, hKind, hResult⟩ := completed_of_returned hReturned
  have hPath := h.completed_path call hCall
  rw [hKind, hResult] at hPath
  rcases path_unsubscribe hPath with ⟨-, hFalse⟩ | ⟨topic, answer, hDeeds, hTrue⟩
  · cases hFalse
  · cases hTrue
    exact ⟨call.thread, topic, h.of_completed hCall (by simp [hDeeds])⟩

/-- A removal from the index belongs to an unsubscribe that has begun. -/
theorem DispatcherRun.removes (h : DispatcherRun history c) {found : Option String}
    (hMem : (t, ⟨.removeIndex id, found⟩) ∈ deedsOf history) :
    ∃ before after middle, history = before ++ .did t (.removeIndex id) found :: after ∧
      DispatcherRun before middle ∧ found = middle.world.shared.byId id ∧
      .began t (.unsubscribe id) ∈ before := by
  obtain ⟨entry, hEntry, hDeed⟩ := List.mem_filterMap.mp hMem
  obtain ⟨before, after, rfl⟩ := List.append_of_mem hEntry
  cases entry with
  | began u k => cases hDeed
  | returned u k r => cases hDeed
  | did u o a =>
      cases hDeed
      obtain ⟨middle, k, next, shared, hPrior, hRun, hExec⟩ := h.at_did
      obtain ⟨deeds, r, hPath⟩ := Program.exists_path (S := DispatcherSig Handler) (.perform _ next)
      obtain ⟨a, rest, rfl, -⟩ := Program.path_perform_iff.mp hPath
      have hWhole := (hPrior.midway t).2 k _ hRun _ r hPath
      obtain rfl : k = .unsubscribe id :=
        path_of_removeIndex hWhole (List.mem_append_right _ List.mem_cons_self)
      simp only [dispatcherMachine, Option.ite_none_right_eq_some] at hExec
      obtain ⟨earlier, inside, rfl, -⟩ := hPrior.call_of_running t _ _ hRun
      exact ⟨_, after, middle, rfl, hPrior, hExec.1, by simp⟩

/-- An emit that returns has looked its topic up once since it began, and then invoked what
it found. -/
theorem DispatcherRun.looked {first last : List (DispatcherEntry Thread Handler)}
    {r : DispatcherResult} (h : DispatcherRun (first ++ .returned t (.emit topic) r :: last) c) :
    ∃ before inside, first = before ++ .began t (.emit topic) :: inside ∧ LooksUpOnce t topic inside := by
  obtain ⟨before, inside, rfl, hPath, hBegan, hReturned⟩ := h.call_of_returned
  obtain ⟨registrations, hDeeds, -⟩ := path_emit hPath
  obtain ⟨between, later, rfl, hNone, hInvokes⟩ := deedsBy_eq_cons hDeeds
  exact ⟨before, _, rfl, ⟨between, later, registrations, rfl, hNone, hInvokes⟩, hBegan, hReturned⟩

/-- What the rest of an emit invokes after its lookup: the registrations it found, as far
as it has come. -/
theorem DispatcherRun.looks_up {before later : List (DispatcherEntry Thread Handler)}
    {registrations : List (Registration Handler)}
    (h : DispatcherRun (before ++ .did t (.lookup topic) registrations :: later) c) :
    ∃ middle, DispatcherRun before middle ∧ registrations = middle.world.shared.lookup topic ∧
      invokedBy t later <+: registrations ∧
      ((∃ k r, .returned t k r ∈ later) → invokedBy t later = registrations) := by
  obtain ⟨middle, k, next, shared, hPrior, hRun, hExec⟩ := h.at_did
  simp only [dispatcherMachine, Option.ite_none_right_eq_some] at hExec
  have hInvokes : (registrations.map fun registration =>
      (⟨.invoke registration, ()⟩ : Deed (DispatcherSig Handler))).filterMap invocation =
        registrations := by
    rw [List.filterMap_map]
    exact List.filterMap_some
  have hFirst : pendingOf before t = [] := by
    obtain ⟨deeds, r, hPath⟩ := Program.exists_path (S := DispatcherSig Handler) (.perform _ next)
    obtain ⟨found, rest, rfl, -⟩ := Program.path_perform_iff.mp hPath
    exact (path_of_lookup ((hPrior.midway t).2 k _ hRun _ r hPath)).1
  have hPending : pendingOf (before ++ .did t (.lookup topic) registrations :: restOfCall t later) t =
      ⟨.lookup topic, registrations⟩ :: deedsBy t (restOfCall t later) := by
    rw [List.append_cons, pendingOf_append (inside_restOfCall later), pendingOf_did,
      Function.update_self, hFirst]
    rfl
  -- the call in which the thread is, carried on to its end
  have hWhole : ∀ (k : DispatcherCall Handler) (deeds : List (Deed (DispatcherSig Handler))) (r),
      k.body.Path (pendingOf (before ++ .did t (.lookup topic) registrations :: restOfCall t later) t
        ++ deeds) r → invokedBy t later ++ deeds.filterMap invocation = registrations := by
    intro k deeds r hPath
    rw [hPending] at hPath
    have hShape : k.body.Path ([] ++ ⟨.lookup topic, registrations⟩ ::
        (deedsBy t (restOfCall t later) ++ deeds)) r := hPath
    obtain ⟨-, hRest⟩ := path_of_lookup hShape
    rw [invokedBy, ← List.filterMap_append, hRest, hInvokes]
  refine ⟨middle, hPrior, hExec.1, ?_⟩
  rcases restOfCall_split t later with ⟨hAll, hInside⟩ | ⟨k', r', after, hSplit⟩
  · refine ⟨?_, fun hReturned => ?_⟩
    rotate_left
    · obtain ⟨k, r, hMem⟩ := hReturned
      exact absurd hMem (hInside k r)
    rw [hAll] at h
    cases hStatus : c.threads t with
    | idle =>
        have hNone := (h.midway t).1 hStatus
        rw [hPending] at hNone
        cases hNone
    | running k p =>
        obtain ⟨deeds, r, hPath⟩ := p.exists_path
        exact ⟨_, hWhole k deeds r ((h.midway t).2 k p hStatus deeds r hPath)⟩
  · rw [hSplit, ← List.cons_append, ← List.append_assoc] at h
    obtain ⟨last, hLast, hDone⟩ := h.at_returned
    have hPath := (hLast.midway t).2 k' _ hDone [] r' (.done r')
    have hSame := hWhole k' [] r' hPath
    rw [List.filterMap_nil, List.append_nil] at hSame
    exact ⟨⟨[], by rw [hSame, List.append_nil]⟩, fun _ => hSame⟩

section Staged

variable {stage : SubscriptionId → IdStage Handler}

theorem DispatcherRun.issued_stage (h : DispatcherRun history c)
    (hLedger : IdLedger stage (deedsOf history)) {call : DispatcherReturn Thread Handler}
    (hCall : call ∈ completedOf history) (hKind : call.call = .subscribe topic handler)
    (hResult : call.result = .issued id) :
    3 ≤ (stage id).rank ∧ ((stage id).InRoutes topic handler ∨ stage id = .gone) := by
  obtain ⟨hRoute, hIndex⟩ := h.subscribed hCall hKind hResult
  exact ⟨hLedger.rank_of_mem hIndex rfl, hLedger.entered _ topic id handler hRoute⟩

theorem DispatcherRun.removed_stage (h : DispatcherRun history c)
    (hLedger : IdLedger stage (deedsOf history))
    (hReturned : .returned t (.unsubscribe id) (.removed true) ∈ history) : stage id = .gone := by
  obtain ⟨u, topic, hMem⟩ := h.removed hReturned
  have hRank := hLedger.rank_of_mem hMem rfl
  cases hStage : stage id <;> simp [hStage, IdStage.rank] at hRank ⊢

/-- As long as nobody has begun to unsubscribe an id, it stays live. -/
theorem DispatcherRun.live_stage (h : DispatcherRun history c) (hLedger : IdLedger stage (deedsOf history))
    (hReturned : .returned t (.subscribe topic handler) (.issued id) ∈ history)
    (hNone : ∀ v, .began v (.unsubscribe id) ∉ history) : stage id = .live topic handler := by
  obtain ⟨call, hCall, -, hKind, hResult⟩ := completed_of_returned hReturned
  obtain ⟨hRank, hIn⟩ := h.issued_stage hLedger hCall hKind hResult
  have hBelow : ¬ 4 ≤ (stage id).rank := by
    intro hFour
    obtain ⟨⟨u, d⟩, hMem, hMilestone⟩ := hLedger.mem_of_rank (by decide) hFour
    obtain ⟨topic, rfl⟩ := milestone_four hMilestone
    obtain ⟨before, after, -, hSplit, -, -, hBegan⟩ := h.removes hMem
    exact hNone u (hSplit ▸ List.mem_append_left _ hBegan)
  cases hStage : stage id with
  | live topic' handler' =>
      rw [hStage] at hIn
      simpa [IdStage.InRoutes] using hIn
  | _ => simp [hStage, IdStage.rank] at hRank hBelow

end Staged

omit [DecidableEq Thread] [DecidableEq Handler] in
/-- Each call that returned has removed its id from the routes as often as it said. -/
theorem grants_count {call : DispatcherReturn Thread Handler}
    (hPath : call.call.body.Path call.deeds call.result) (id : SubscriptionId) :
    call.deeds.countP (fun d => milestone d = some (id, 5)) = if grants id call then 1 else 0 := by
  obtain ⟨t, k, deeds, r⟩ := call
  cases k with
  | subscribe topic handler =>
      obtain ⟨other, rfl, rfl⟩ := path_subscribe hPath
      simp [milestone, grants]
  | unsubscribe other =>
      rcases path_unsubscribe hPath with ⟨rfl, rfl⟩ | ⟨topic, answer, rfl, rfl⟩
      · simp [milestone, grants]
      · cases answer <;> simp [milestone, grants, List.countP_cons]
  | emit topic =>
      obtain ⟨registrations, rfl, rfl⟩ := path_emit hPath
      simp [milestone, grants]

theorem DispatcherRun.grants_eq (h : DispatcherRun history c) (id : SubscriptionId) :
    (completedOf history).countP (grants id) ≤ passed (deedsOf history) id 5 ∧
      (c.Quiescent → (completedOf history).countP (grants id) = passed (deedsOf history) id 5) := by
  have hCalls : ((completedOf history).map fun call =>
      call.deeds.countP fun d => milestone d = some (id, 5)).sum =
        (completedOf history).countP (grants id) := by
    rw [← sum_indicator]
    exact congrArg List.sum (List.map_congr_left fun call hCall =>
      grants_count (h.completed_path call hCall) id)
  rw [← hCalls]
  exact ⟨h.count_le _, fun hQuiet => (h.settled_count hQuiet _).symm⟩

/-- An id that an unsubscribe has gone for is on its way out, whatever that one found. -/
theorem DispatcherRun.taken (h : DispatcherRun history c) (hRoom : draws (deedsOf history) ≤ 2 ^ 64)
    (hUsed : UsedAfterReturn history) {stage : SubscriptionId → IdStage Handler}
    (hLedger : IdLedger stage (deedsOf history)) {found : Option String}
    (hMem : (t, ⟨.removeIndex id, found⟩) ∈ deedsOf history) : 4 ≤ (stage id).rank := by
  cases found with
  | some topic => exact hLedger.rank_of_mem hMem rfl
  | none =>
      obtain ⟨before, after, middle, rfl, hPrior, hNone, hBegan⟩ := h.removes hMem
      have hEarlier : ∀ d ∈ deedsOf before, d ∈ deedsOf
          (before ++ .did t (.removeIndex id) none :: after) := fun d hDeed => by
        rw [deedsOf, List.filterMap_append]
        exact List.mem_append_left _ hDeed
      have hLess : draws (deedsOf before) ≤ 2 ^ 64 := by
        refine Nat.le_trans ?_ hRoom
        rw [deedsOf, deedsOf, List.filterMap_append, draws, draws, List.countP_append]
        exact Nat.le_add_right _ _
      obtain ⟨stage₀, pos, hBooks, hLedger₀, -⟩ := hPrior.books hLess
      obtain ⟨earlier, rest, hSplit⟩ := List.append_of_mem hBegan
      obtain ⟨u, topic, handler, hReturned⟩ := hUsed earlier t id
        (rest ++ .did t (.removeIndex id) none :: after) (by simp [hSplit])
      have hIn : .returned u (.subscribe topic handler) (.issued id) ∈ before := by
        rw [hSplit]
        exact List.mem_append_left _ hReturned
      obtain ⟨call, hCall, -, hKind, hResult⟩ := completed_of_returned hIn
      obtain ⟨hRank, -⟩ := hPrior.issued_stage hLedger₀ hCall hKind hResult
      have hNotLive : ∀ topic handler, stage₀ id ≠ .live topic handler := by
        intro topic handler hLive
        have hSome := (hBooks.maps.index id topic).mpr ⟨handler, hLive⟩
        rw [← hNone] at hSome
        cases hSome
      have hFour : 4 ≤ (stage₀ id).rank := by
        cases hStage : stage₀ id with
        | live topic handler => exact absurd hStage (hNotLive topic handler)
        | _ => simp [hStage, IdStage.rank] at hRank ⊢
      obtain ⟨⟨v, d⟩, hDeed, hMilestone⟩ := hLedger₀.mem_of_rank (by decide) hFour
      exact hLedger.rank_of_mem (hEarlier _ hDeed) hMilestone

/-- Issued to a subscriber of the topic, and not granted to anybody since. -/
def LiveId (history : List (DispatcherEntry Thread Handler)) (topic : String) (id : SubscriptionId) :
    Prop :=
  (∃ call ∈ completedOf history, (∃ handler, call.call = .subscribe topic handler) ∧
    call.result = .issued id) ∧ (completedOf history).countP (grants id) = 0

/-- What holds of the dispatcher while no call is in progress. -/
structure MapsAgree (history : List (DispatcherEntry Thread Handler)) (d : Dispatcher Handler) :
    Prop where
  index : ∀ id topic, d.byId id = some topic ↔ id ∈ (d.lookup topic).map Prod.fst
  live : ∀ id topic, d.byId id = some topic ↔ LiveId history topic id
  once : ∀ id topic, LiveId history topic id → ((d.lookup topic).map Prod.fst).count id = 1
  tidy : ∀ topic, d.routes topic ≠ some []
  granted : ∀ id, (∃ call ∈ completedOf history, call.call = .unsubscribe id) →
    (completedOf history).countP (grants id) = 1

/-- What holds of a run of the dispatcher. -/
structure DispatcherSound (history : List (DispatcherEntry Thread Handler))
    (c : DispatcherConfig Thread Handler) : Prop where
  agree : c.Quiescent → MapsAgree history c.world.shared
  grantedOnce : ∀ id, (completedOf history).countP (grants id) ≤ 1
  /-- An emit that returns has looked its topic up exactly once since it began, and has then
  invoked what it found and nothing else: the lookups below are those of emits. -/
  looked : ∀ first t topic r last, history = first ++ .returned t (.emit topic) r :: last →
    ∃ before inside, first = before ++ .began t (.emit topic) :: inside ∧ LooksUpOnce t topic inside
  /-- An emit looks up after the subscribe has returned and before any unsubscribe has
  begun: by its return it has invoked the registration once. -/
  delivers : ∀ before t topic registrations later,
    history = before ++ .did t (.lookup topic) registrations :: later →
    (∃ k r, .returned t k r ∈ later) → ∀ u handler id,
      .returned u (.subscribe topic handler) (.issued id) ∈ before →
      (∀ v, .began v (.unsubscribe id) ∉ before) →
      (invokedBy t later).filter (fun registration => registration.1 = id) = [(id, handler)]
  /-- An emit looks up after an unsubscribe has returned true: it never invokes the
  registration. -/
  silent : ∀ before t topic registrations later,
    history = before ++ .did t (.lookup topic) registrations :: later → ∀ u id,
      .returned u (.unsubscribe id) (.removed true) ∈ before →
      ∀ handler, (id, handler) ∉ invokedBy t later

omit [DecidableEq Handler] in
/-- The registrations with one id are the one that has it. -/
theorem filter_of_nodup {registrations : List (Registration Handler)}
    (hNodup : (registrations.map Prod.fst).Nodup) (hMem : (id, handler) ∈ registrations) :
    registrations.filter (fun registration => registration.1 = id) = [(id, handler)] := by
  induction registrations with
  | nil => cases hMem
  | cons registration rest ih =>
      rw [List.map_cons, List.nodup_cons] at hNodup
      rcases List.mem_cons.mp hMem with rfl | hRest
      · have hOthers : rest.filter (fun registration => registration.1 = id) = [] := by
          rw [List.filter_eq_nil_iff]
          intro other hOther hSame
          have hId : other.1 = id := of_decide_eq_true hSame
          exact hNodup.1 (List.mem_map.mpr ⟨other, hOther, hId⟩)
        rw [List.filter_cons_of_pos (by simp), hOthers]
      · have hApart : registration.1 ≠ id := fun hSame =>
          hNodup.1 (List.mem_map.mpr ⟨_, hRest, hSame.symm⟩)
        rw [List.filter_cons_of_neg (by simpa using hApart), ih hNodup.2 hRest]

theorem DispatcherRun.delivers {before later : List (DispatcherEntry Thread Handler)}
    {registrations : List (Registration Handler)} {u : Thread}
    (h : DispatcherRun (before ++ .did t (.lookup topic) registrations :: later) c)
    (hRoom : draws (deedsOf before) ≤ 2 ^ 64) (hReturns : ∃ k r, .returned t k r ∈ later)
    (hIssued : .returned u (.subscribe topic handler) (.issued id) ∈ before)
    (hNone : ∀ v, .began v (.unsubscribe id) ∉ before) :
    (invokedBy t later).filter (fun registration => registration.1 = id) = [(id, handler)] := by
  obtain ⟨middle, hPrior, hFound, -, hAll⟩ := h.looks_up
  obtain ⟨stage, pos, hBooks, hLedger, -⟩ := hPrior.books hRoom
  have hLive := hPrior.live_stage hLedger hIssued hNone
  have hMem : (id, handler) ∈ middle.world.shared.lookup topic := by
    rw [hBooks.maps.routes, hLive]
    exact ⟨rfl, rfl⟩
  rw [hAll hReturns, hFound]
  exact filter_of_nodup (hBooks.maps.nodup topic) hMem

theorem DispatcherRun.silent {before later : List (DispatcherEntry Thread Handler)}
    {registrations : List (Registration Handler)} {u : Thread}
    (h : DispatcherRun (before ++ .did t (.lookup topic) registrations :: later) c)
    (hRoom : draws (deedsOf before) ≤ 2 ^ 64)
    (hRemoved : .returned u (.unsubscribe id) (.removed true) ∈ before) :
    (id, handler) ∉ invokedBy t later := by
  obtain ⟨middle, hPrior, hFound, hSome, -⟩ := h.looks_up
  obtain ⟨stage, pos, hBooks, hLedger, -⟩ := hPrior.books hRoom
  intro hMem
  have hIn := hSome.mem hMem
  rw [hFound, hBooks.maps.routes, hPrior.removed_stage hLedger hRemoved] at hIn
  exact hIn

omit [DecidableEq Thread] [DecidableEq Handler] in
theorem Books.at_rest {stage : SubscriptionId → IdStage Handler} {pos : Thread → DispatcherPlace Handler}
    {w : DispatcherWorld Thread Handler} (h : Books stage pos w) (hRest : ∀ t, pos t = .rest)
    (id : SubscriptionId) : (stage id).transient = false := by
  by_contra hTransient
  obtain ⟨t, hCarries⟩ := h.placement.carried id (by simpa using hTransient)
  rw [hRest t] at hCarries
  cases hCarries

theorem DispatcherRun.maps_agree (h : DispatcherRun history c)
    (hRoom : draws (deedsOf history) ≤ 2 ^ 64) (hUsed : UsedAfterReturn history)
    (hQuiet : c.Quiescent) : MapsAgree history c.world.shared := by
  obtain ⟨stage, pos, hBooks, hLedger, hRest⟩ := h.books hRoom
  have hSettled := hBooks.at_rest (hRest hQuiet)
  have hGrants : ∀ id, (completedOf history).countP (grants id) =
      if 5 ≤ (stage id).rank then 1 else 0 := by
    intro id
    rw [(h.grants_eq id).2 hQuiet, hLedger.passed]
    simp
  have hIndex : ∀ id topic, c.world.shared.byId id = some topic ↔
      id ∈ (c.world.shared.lookup topic).map Prod.fst := by
    intro id topic
    rw [hBooks.maps.index, hBooks.maps.mem_ids]
    have hStill := hSettled id
    cases hStage : stage id <;> simp [hStage, IdStage.transient, IdStage.InRoutes] at hStill ⊢
  have hLive : ∀ id topic, c.world.shared.byId id = some topic ↔ LiveId history topic id := by
    intro id topic
    rw [hBooks.maps.index]
    constructor
    · rintro ⟨handler, hStage⟩
      obtain ⟨⟨t, d⟩, hMem, hMilestone⟩ :=
        hLedger.mem_of_rank (Nat.le_add_left 1 2) (by rw [hStage]; exact Nat.le_refl 3)
      obtain ⟨topic', rfl⟩ := milestone_three hMilestone
      obtain ⟨call, hCall, hDeed⟩ := h.of_call hQuiet hMem
      obtain ⟨handler', hKind, hResult⟩ := path_of_insertIndex (h.completed_path call hCall) hDeed
      obtain ⟨-, hIn⟩ := h.issued_stage hLedger hCall hKind hResult
      obtain ⟨rfl, -⟩ : topic = topic' ∧ handler = handler' := by
        simpa [hStage, IdStage.InRoutes] using hIn
      refine ⟨⟨call, hCall, ⟨handler', hKind⟩, hResult⟩, ?_⟩
      rw [hGrants, hStage]
      rfl
    · rintro ⟨⟨call, hCall, ⟨handler, hKind⟩, hResult⟩, hNever⟩
      obtain ⟨hRank, hIn⟩ := h.issued_stage hLedger hCall hKind hResult
      have hStill := hSettled id
      rw [hGrants] at hNever
      cases hStage : stage id <;>
        simp [hStage, IdStage.transient, IdStage.rank, IdStage.InRoutes] at hStill hRank hNever hIn ⊢
      exact hIn.1
  refine ⟨hIndex, hLive, fun id topic hId => ?_, hBooks.maps.tidy, fun id hAsked => ?_⟩
  · exact List.count_eq_one_of_mem (hBooks.maps.nodup topic)
      ((hIndex id topic).mp ((hLive id topic).mpr hId))
  · obtain ⟨call, hCall, hKind⟩ := hAsked
    have hPath := h.completed_path call hCall
    rw [hKind] at hPath
    obtain ⟨found, hMem⟩ : ∃ found, ⟨.removeIndex id, found⟩ ∈ call.deeds := by
      rcases path_unsubscribe hPath with ⟨hDeeds, -⟩ | ⟨topic, answer, hDeeds, -⟩
      · exact ⟨none, by simp [hDeeds]⟩
      · exact ⟨some topic, by simp [hDeeds]⟩
    have hFour := h.taken hRoom hUsed hLedger (h.of_completed hCall hMem)
    have hStill := hSettled id
    rw [hGrants]
    cases hStage : stage id <;> simp [hStage, IdStage.transient, IdStage.rank] at hStill hFour ⊢

/-- The dispatcher under any number of threads. -/
theorem dispatcher_sound (history : List (DispatcherEntry Thread Handler))
    (c : DispatcherConfig Thread Handler) (h : DispatcherRun history c)
    (hRoom : draws (deedsOf history) < 2 ^ 64) (hUsed : UsedAfterReturn history) :
    DispatcherSound history c := by
  have hEarlier : ∀ before later, history = before ++ later → draws (deedsOf before) ≤ 2 ^ 64 := by
    rintro before later rfl
    refine Nat.le_trans ?_ (Nat.le_of_lt hRoom)
    rw [deedsOf, deedsOf, List.filterMap_append, draws, draws, List.countP_append]
    exact Nat.le_add_right _ _
  refine ⟨h.maps_agree (Nat.le_of_lt hRoom) hUsed, fun id => ?_, ?_, ?_, ?_⟩
  · obtain ⟨stage, pos, -, hLedger, -⟩ := h.books (Nat.le_of_lt hRoom)
    apply Nat.le_trans (h.grants_eq id).1
    rw [hLedger.passed]
    split_ifs <;> decide
  · intro first t topic r last hSplit
    subst hSplit
    exact h.looked
  · intro before t topic registrations later hSplit hReturns u handler id hIssued hNone
    have hBefore := hEarlier _ _ hSplit
    subst hSplit
    exact h.delivers hBefore hReturns hIssued hNone
  · intro before t topic registrations later hSplit u id hRemoved handler
    have hBefore := hEarlier _ _ hSplit
    subst hSplit
    exact h.silent hBefore hRemoved

omit [DecidableEq Thread] [DecidableEq Handler] in
/-- A history with one unsubscribe, after the subscribe. -/
theorem usedAfterReturn_once {first last : List (DispatcherEntry Thread Handler)} {u : Thread}
    (hFirst : ∀ t id, .began t (.unsubscribe id) ∉ first)
    (hLast : ∀ t id, .began t (.unsubscribe id) ∉ last)
    (hReturned : .returned u (.subscribe topic handler) (.issued id) ∈ first) :
    UsedAfterReturn (first ++ .began t (.unsubscribe id) :: last) := by
  intro before t' id' after hSplit
  rcases List.append_eq_append_iff.mp hSplit with ⟨middle, rfl, hMore⟩ | ⟨middle, rfl, hMore⟩
  · cases middle with
    | nil =>
        cases (List.cons.inj hMore).1
        exact ⟨u, topic, handler, List.mem_append_left _ hReturned⟩
    | cons entry rest =>
        exact absurd ((List.cons.inj hMore).2 ▸ by simp) (hLast t' id')
  · cases middle with
    | nil =>
        cases (List.cons.inj hMore).1
        exact ⟨u, topic, handler, by simpa using hReturned⟩
    | cons entry rest =>
        obtain ⟨rfl, -⟩ := List.cons.inj hMore
        exact absurd (by simp) (hFirst t' id')

end Runs

/-- The answer an operation gives in a state. -/
def dispatcherAnswer (_ : Bool) (o : DispatcherOp Nat) (d : Dispatcher Nat) :
    (DispatcherSig Nat).Ans o :=
  match o with
  | .drawId => d.drawId.1
  | .insertRoute _ _ _ => ()
  | .insertIndex _ _ => ()
  | .removeIndex id => (d.removeIndex id).1
  | .removeRoute topic id => (d.removeRoute topic id).1
  | .lookup topic => d.lookup topic
  | .invoke _ => ()

/-- An emit looks up a handler that is unsubscribed before the emit gets to invoke it. -/
theorem dispatcher_sound_race : ∃ history, ∃ c : DispatcherConfig Bool Nat, c.Quiescent ∧
    (completedOf history).map (fun call => call.result) = [.issued 0, .removed true, .emitted] ∧
    DispatcherSound history c := by
  let first : List (DispatcherEntry Bool Nat) := [.began true (.subscribe "kernel.custom" 7),
    .did true .drawId (0 : UInt64), .did true (.insertRoute "kernel.custom" 0 7) (),
    .did true (.insertIndex 0 "kernel.custom") (),
    .returned true (.subscribe "kernel.custom" 7) (.issued 0),
    .began false (.emit "kernel.custom"), .did false (.lookup "kernel.custom") [(0, 7)]]
  let last : List (DispatcherEntry Bool Nat) := [.did true (.removeIndex 0) (some "kernel.custom"),
    .did false (.invoke (0, 7)) (), .did true (.removeRoute "kernel.custom" 0) true,
    .returned true (.unsubscribe 0) (.removed true), .returned false (.emit "kernel.custom") .emitted]
  obtain ⟨c, hRun, hFalse, hTrue⟩ : ∃ c : DispatcherConfig Bool Nat,
      scheduleNoting (dispatcherMachine Bool Nat) DispatcherCall.body dispatcherAnswer
        ([], DispatcherConfig.new Bool Nat) [.call true (.subscribe "kernel.custom" 7), .go true,
          .go true, .go true, .ret true, .call false (.emit "kernel.custom"), .go false,
          .call true (.unsubscribe 0), .go true, .go false, .go true, .ret true, .ret false] =
        some (first ++ .began true (.unsubscribe 0) :: last, c) ∧
      c.threads false = .idle ∧ c.threads true = .idle := ⟨_, rfl, rfl, rfl⟩
  have hUsed : UsedAfterReturn (first ++ .began true (.unsubscribe 0) :: last) :=
    usedAfterReturn_once (by simp [first]) (by simp [last])
      (show .returned true (.subscribe "kernel.custom" 7) (.issued 0) ∈ first by simp [first])
  have hQuiet : c.Quiescent := fun t => by cases t <;> assumption
  exact ⟨_, c, hQuiet, rfl, dispatcher_sound _ c (Chronicle.start.scheduled hRun)
    (show draws (deedsOf _) < 2 ^ 64 from by decide) hUsed⟩

end ServiceKernel
