import Spdlogger.RideStateManager.LastNotice

namespace spdlogger.ride_state_manager

variable {Dispatcher Observer Tid : Type} [DecidableEq Dispatcher] [DecidableEq Observer]
  [Fintype Tid] [DecidableEq Tid]

/-- While a thread is inside its loop, the others neither edit `observers_` nor move it on. -/
theorem State.Locked.alone {s next : State Dispatcher Observer Tid} (h : s.Locked) {thread : Tid}
    (hinside : (s.callers thread).scans) {action : Action Dispatcher Observer Tid}
    (hstep : s.step action = some next) :
    action = .callerStep thread ∧ s.callerStep thread = some next ∨
      action ≠ .callerStep thread ∧ next.manager.observers = s.manager.observers ∧
        next.callers thread = s.callers thread := by
  by_cases haction : action = .callerStep thread
  · subst haction
    exact .inl ⟨rfl, hstep⟩
  · refine .inr ⟨haction, ?_⟩
    have htaken : s.observersMutex ≠ none := by
      intro hfree
      have houtside := h.all_outside hfree (.caller thread)
      rw [State.inside, hinside] at houtside
      cases houtside
    cases State.turn_of_step hstep with
    | elsewhere hframe | owner hframe => exact ⟨hframe.observers, congrFun hframe.callers thread⟩
    | call other phase houtside _ _ _ hnext =>
      subst hnext
      refine ⟨rfl, Function.update_of_ne ?_ _ _⟩
      rintro rfl
      rw [CallerPhase.scans_of_outside houtside] at hinside
      cases hinside
    | callerStep other hcaller =>
      have hother : other ≠ thread := by
        rintro rfl
        exact haction rfl
      have houtside := h.others_outside hinside hother
      obtain ⟨_, hfree, _⟩ | ⟨_, _, _, _, hphase, _⟩ | ⟨_, _, _, hphase, _⟩ :=
        State.callerStep_cases hcaller
      · exact absurd hfree htaken
      · rw [hphase] at houtside
        cases houtside
      · rw [hphase] at houtside
        cases houtside
    | scan _ _ _ _ hphase =>
      have houtside := h.thread_outside hinside
      rw [hphase] at houtside
      cases houtside
    | lock _ _ _ hnext | dispatch _ _ _ _ _ _ hnext | resume _ _ _ _ hnext | finish _ _ _ _ _ hnext =>
      subst hnext
      exact ⟨rfl, rfl⟩

/-- The loop of `subscribe` is about to return because it has met the pair. -/
def Scan.found {Dispatcher Observer : Type} : Scan Dispatcher Observer → Bool
  | .releasingObserver _ _ found | .releasingDispatcher _ found => found
  | .lockingDispatcher | .lockingObserver _ | .deciding _ _ => false

/-- What one step of the loop of `subscribe` comes to. -/
theorem State.Scanned.subscribeStep_effect {s : State Dispatcher Observer Tid} (h : s.Scanned)
    {thread : Tid} {dispatcher : Dispatcher} {observer : Observer} {index : Nat}
    {scan : Scan Dispatcher Observer}
    (hphase : s.callers thread = .subscribing dispatcher observer index scan)
    (hfound : scan.found → ⟨dispatcher, observer⟩ ∈ s.manager.observers) :
    let next := s.subscribeStep thread dispatcher observer index scan
    (∃ index scan, next.callers thread = .subscribing dispatcher observer index scan ∧
      (scan.found → ⟨dispatcher, observer⟩ ∈ next.manager.observers) ∧
      next.manager.observers.Sublist s.manager.observers) ∨
    next.callers thread = .returned true ∧ ⟨dispatcher, observer⟩ ∉ s.manager.observers ∧
      next.manager.observers = s.manager.observers ++ [⟨dispatcher, observer⟩] ∨
    next.callers thread = .returned false ∧ ⟨dispatcher, observer⟩ ∈ s.manager.observers ∧
      next.manager.observers = s.manager.observers := by
  have hreads := h.callers thread
  rw [hphase] at hreads
  obtain ⟨hunmet, hscan⟩ := hreads
  have hmove := s.subscribeMove thread dispatcher observer index scan
  generalize s.subscribeStep thread dispatcher observer index scan = next at hmove ⊢
  cases hmove with
  | append hend =>
    rw [List.take_of_length_le hend] at hunmet
    exact .inr (.inl ⟨Function.update_self _ _ _, hunmet, rfl⟩)
  | find =>
    refine .inl ⟨_, _, Function.update_self _ _ _, fun _ => ?_, List.Sublist.refl _⟩
    exact List.mem_of_getElem? hscan.entry_eq
  | erase =>
    exact .inl ⟨_, _, Function.update_self _ _ _, by simp [Scan.found], List.eraseIdx_sublist _ _⟩
  | releaseObserver =>
    exact .inl ⟨_, _, Function.update_self _ _ _, hfound, List.Sublist.refl _⟩
  | reject => exact .inr (.inr ⟨Function.update_self _ _ _, hfound rfl, rfl⟩)
  | lockDispatcher | lockObserver | pass | next =>
    exact .inl ⟨_, _, Function.update_self _ _ _, by simp [Scan.found], List.Sublist.refl _⟩

/-- A thread runs the loop of `subscribe`. -/
def State.Subscribing (thread : Tid) (dispatcher : Dispatcher) (observer : Observer)
    (s : State Dispatcher Observer Tid) : Prop :=
  ∃ index scan, s.callers thread = .subscribing dispatcher observer index scan

/-- What is left of the entries `start` has lost expired ones only. -/
structure State.Kept (start kept : List (ObserverData Dispatcher Observer))
    (s : State Dispatcher Observer Tid) : Prop where
  sublist : kept.Sublist start
  alive : ∀ entry ∈ start, s.alive entry → entry ∈ kept

/-- The loop of `subscribe`, begun with the entries `start`. -/
structure State.SubscribeLoop (start : List (ObserverData Dispatcher Observer)) (thread : Tid)
    (dispatcher : Dispatcher) (observer : Observer) (s : State Dispatcher Observer Tid) : Prop where
  kept : s.Kept start s.manager.observers
  phase : ∃ index scan, s.callers thread = .subscribing dispatcher observer index scan ∧
    (scan.found → ⟨dispatcher, observer⟩ ∈ s.manager.observers)

/-- `subscribe` has returned whether its pair was missing, and has appended it if so. -/
structure State.SubscribeReturned (start : List (ObserverData Dispatcher Observer)) (thread : Tid)
    (dispatcher : Dispatcher) (observer : Observer) (s : State Dispatcher Observer Tid) : Prop where
  outcome : ∃ result kept, s.callers thread = .returned result ∧ s.Kept start kept ∧
    (result = true ↔ ⟨dispatcher, observer⟩ ∉ start) ∧
    s.manager.observers = if result then kept ++ [⟨dispatcher, observer⟩] else kept

omit [DecidableEq Tid] in
/-- What has been kept stays kept while the objects only age. -/
theorem State.Kept.ages {start kept : List (ObserverData Dispatcher Observer)}
    {s next : State Dispatcher Observer Tid} (h : s.Kept start kept) (hages : s.Ages next) :
    next.Kept start kept :=
  ⟨h.sublist, fun entry hentry halive => h.alive entry hentry (hages.alive halive)⟩

omit [DecidableEq Tid] in
/-- The caller keeps the pair of its call alive, so it is there if it was at the begin. -/
theorem State.SubscribeLoop.mem_iff {start : List (ObserverData Dispatcher Observer)} {thread : Tid}
    {dispatcher : Dispatcher} {observer : Observer} {s : State Dispatcher Observer Tid}
    (h : s.SubscribeLoop start thread dispatcher observer) :
    ⟨dispatcher, observer⟩ ∈ s.manager.observers ↔ ⟨dispatcher, observer⟩ ∈ start := by
  obtain ⟨index, scan, hphase, _⟩ := h.phase
  have hdispatcher : s.dispatcherAlive dispatcher :=
    State.dispatcherAlive_of_caller hphase (by simp [CallerPhase.holdsDispatcher])
  have hobserver : s.observerAlive observer :=
    State.observerAlive_of_caller hphase (by simp [CallerPhase.holdsObserver])
  refine ⟨fun hmem => h.kept.sublist.subset hmem, fun hmem => h.kept.alive _ hmem ?_⟩
  exact (Bool.and_eq_true _ _).mpr ⟨hdispatcher, hobserver⟩

/-- A step of anyone leaves `subscribe` in its loop, or it has returned with its result. -/
theorem State.SubscribeLoop.step {start : List (ObserverData Dispatcher Observer)} {thread : Tid}
    {dispatcher : Dispatcher} {observer : Observer} {s next : State Dispatcher Observer Tid}
    (h : s.SubscribeLoop start thread dispatcher observer) (hscanned : s.Scanned)
    (hlocked : s.Locked) {action : Action Dispatcher Observer Tid}
    (hstep : s.step action = some next) :
    next.SubscribeLoop start thread dispatcher observer ∨
      next.SubscribeReturned start thread dispatcher observer := by
  have hages := State.ages_step hstep
  have hmem := h.mem_iff
  obtain ⟨index, scan, hphase, hfound⟩ := h.phase
  obtain ⟨rfl, hcaller⟩ | ⟨_, hobservers, hcallers⟩ := hlocked.alone (by rw [hphase]; rfl) hstep
  · have hnext : next = s.subscribeStep thread dispatcher observer index scan := by
      simp only [State.callerStep, hphase, Option.some.injEq] at hcaller
      exact hcaller.symm
    have hedit := hscanned.edit_subscribeStep hphase
    have heffect := hscanned.subscribeStep_effect hphase hfound
    rw [← hnext] at hedit heffect
    obtain ⟨position, current, hstays, hmet, hsublist⟩ | ⟨hreturned, hmissing, happended⟩ |
      ⟨hreturned, hthere, hsame⟩ := heffect
    · refine .inl ⟨⟨hsublist.trans h.kept.sublist, fun entry hentry halive => ?_⟩,
        position, current, hstays, hmet⟩
      have hbefore := hages.alive halive
      refine hedit.mem (h.kept.alive entry hentry hbefore) ?_ hbefore
      simp [State.unsubscribedBy, hphase]
    · refine .inr ⟨true, s.manager.observers, hreturned, h.kept.ages hages, ?_, happended⟩
      rw [← hmem]
      exact iff_of_true rfl hmissing
    · refine .inr ⟨false, s.manager.observers, hreturned, h.kept.ages hages, ?_, hsame⟩
      rw [← hmem]
      exact iff_of_false (by simp) (not_not_intro hthere)
  · refine .inl ⟨hobservers ▸ h.kept.ages hages, index, scan, hcallers.trans hphase, ?_⟩
    rw [hobservers]
    exact hfound

/-- A run of the loop of `subscribe` from its begin to its return. -/
theorem State.subscribeReturned_of_run {s last : State Dispatcher Observer Tid}
    (hreach : (rideMachine Dispatcher Observer Tid).Reachable s) {thread : Tid}
    {dispatcher : Dispatcher} {observer : Observer}
    (hcall : s.callers thread = .subscribing dispatcher observer 0 .lockingDispatcher)
    {schedule : List (Action Dispatcher Observer Tid)}
    (hinside : (rideMachine Dispatcher Observer Tid).RunsBy
      (fun s _ => s.Subscribing thread dispatcher observer) s schedule)
    (hrun : (rideMachine Dispatcher Observer Tid).run s schedule = some last) {result : Bool}
    (hreturned : last.callers thread = .returned result) :
    last.SubscribeReturned s.manager.observers thread dispatcher observer := by
  have hend : last.SubscribeLoop s.manager.observers thread dispatcher observer ∨
      last.SubscribeReturned s.manager.observers thread dispatcher observer := by
    refine hreach.preserved (I := fun s' => s'.SubscribeLoop s.manager.observers thread dispatcher
      observer ∨ s'.SubscribeReturned s.manager.observers thread dispatcher observer)
      (fun before action next hs hsafe hloop hstep => ?_) ?_ hinside hrun
    · obtain hinLoop | hdone := hsafe
      · exact hinLoop.step (State.scanned_of_reachable hs) (State.locked_of_reachable hs) hstep
      · obtain ⟨_, _, hgone, _⟩ := hdone.outcome
        obtain ⟨_, _, hphase⟩ := hloop
        rw [hgone] at hphase
        cases hphase
    · exact .inl ⟨⟨List.Sublist.refl _, fun _ hentry _ => hentry⟩, 0, _, hcall, by simp [Scan.found]⟩
  obtain hloop | hdone := hend
  · obtain ⟨_, _, hphase, _⟩ := hloop.phase
    rw [hreturned] at hphase
    cases hphase
  · exact hdone

/-- What one step of the loop of `unsubscribe` does to the entries. -/
theorem State.Scanned.unsubscribeStep_effect {s : State Dispatcher Observer Tid} (h : s.Scanned)
    {thread : Tid} {observer : Observer} {index : Nat} {scan : Scan Dispatcher Observer}
    (hphase : s.callers thread = .unsubscribing observer index scan) :
    let next := s.unsubscribeStep thread observer index scan
    next.manager.observers.Sublist s.manager.observers ∧
    (∀ entry ∈ s.manager.observers, entry.observer ≠ observer → s.observerAlive entry.observer →
      entry ∈ next.manager.observers) ∧
    ((∃ index scan, next.callers thread = .unsubscribing observer index scan) ∨
      next.callers thread = .returned true) := by
  have hreads := h.callers thread
  rw [hphase] at hreads
  obtain ⟨_, hscan⟩ := hreads
  have hmove := s.unsubscribeMove thread observer index scan
  generalize s.unsubscribeStep thread observer index scan = next at hmove ⊢
  cases hmove with
  | erase d =>
    refine ⟨List.eraseIdx_sublist _ _, fun entry hentry hother _ => ?_,
      .inl ⟨_, _, Function.update_self _ _ _⟩⟩
    refine mem_eraseIdx_of_ne hentry fun hat => ?_
    have hcurrent := hscan d (some observer) rfl
    rw [State.ReadsObserver, hat, Option.map_some, Option.some.injEq] at hcurrent
    exact hother hcurrent
  | eraseExpired d =>
    refine ⟨List.eraseIdx_sublist _ _, fun entry hentry _ halive => ?_,
      .inl ⟨_, _, Function.update_self _ _ _⟩⟩
    refine mem_eraseIdx_of_ne hentry fun hat => ?_
    have hexpired : s.lockObserver index = none := hscan d none rfl
    rw [State.lockObserver, hat, Option.bind_some, if_pos halive] at hexpired
    cases hexpired
  | finish =>
    exact ⟨List.Sublist.refl _, fun _ hentry _ _ => hentry, .inr (Function.update_self _ _ _)⟩
  | lockObserver | pass | next =>
    exact ⟨List.Sublist.refl _, fun _ hentry _ _ => hentry,
      .inl ⟨_, _, Function.update_self _ _ _⟩⟩

/-- `unsubscribe` of `observer` since it began with the entries `start`. Once it has
returned, no entry of the observer is left. -/
structure State.Unsubscribed (start : List (ObserverData Dispatcher Observer)) (thread : Tid)
    (observer : Observer) (s : State Dispatcher Observer Tid) : Prop where
  sublist : s.manager.observers.Sublist start
  alive : ∀ entry ∈ start, entry.observer ≠ observer → s.observerAlive entry.observer →
    entry ∈ s.manager.observers
  phase : s.Unsubscribing thread observer ∨ s.callers thread = .returned true ∧
    ∀ entry ∈ s.manager.observers, entry.observer ≠ observer

/-- A step of anyone keeps what `unsubscribe` has found of its observer. -/
theorem State.Unsubscribed.step {start : List (ObserverData Dispatcher Observer)} {thread : Tid}
    {observer : Observer} {s next : State Dispatcher Observer Tid}
    (h : s.Unsubscribed start thread observer) (hloop : s.Unsubscribing thread observer)
    (hscanned : s.Scanned) (hlocked : s.Locked) {action : Action Dispatcher Observer Tid}
    (hstep : s.step action = some next) : next.Unsubscribed start thread observer := by
  have hages := State.ages_step hstep
  obtain ⟨index, scan, hphase⟩ := hloop
  obtain ⟨rfl, hcaller⟩ | ⟨_, hobservers, hcallers⟩ := hlocked.alone (by rw [hphase]; rfl) hstep
  · have hnext : next = s.unsubscribeStep thread observer index scan := by
      simp only [State.callerStep, hphase, Option.some.injEq] at hcaller
      exact hcaller.symm
    have heffect := hscanned.unsubscribeStep_effect hphase
    rw [← hnext] at heffect
    obtain ⟨hsublist, hkept, hend⟩ := heffect
    refine ⟨hsublist.trans h.sublist, fun entry hentry hother halive => ?_, hend.imp_right ?_⟩
    · have hbefore := hages.observer _ halive
      exact hkept entry (h.alive entry hentry hother hbefore) hother hbefore
    · exact fun hreturned => ⟨hreturned, hscanned.entries_of_return hphase hstep hreturned⟩
  · refine ⟨hobservers ▸ h.sublist, fun entry hentry hother halive => ?_, .inl ?_⟩
    · rw [hobservers]
      exact h.alive entry hentry hother (hages.observer _ halive)
    · exact ⟨index, scan, hcallers.trans hphase⟩

/-- A run of the loop of `unsubscribe` from its begin to its return. -/
theorem State.unsubscribed_of_run {s last : State Dispatcher Observer Tid}
    (hreach : (rideMachine Dispatcher Observer Tid).Reachable s) {thread : Tid}
    {observer : Observer} (hcall : s.Unsubscribing thread observer)
    {schedule : List (Action Dispatcher Observer Tid)}
    (hinside : (rideMachine Dispatcher Observer Tid).RunsBy
      (fun s _ => s.Unsubscribing thread observer) s schedule)
    (hrun : (rideMachine Dispatcher Observer Tid).run s schedule = some last) :
    last.Unsubscribed s.manager.observers thread observer := by
  refine hreach.preserved (I := State.Unsubscribed s.manager.observers thread observer)
    (fun before action next hs hsafe hloop hstep => ?_) ?_ hinside hrun
  · exact hsafe.step hloop (State.scanned_of_reachable hs) (State.locked_of_reachable hs) hstep
  · exact ⟨List.Sublist.refl _, fun _ hentry _ _ => hentry, .inl hcall⟩

end spdlogger.ride_state_manager
