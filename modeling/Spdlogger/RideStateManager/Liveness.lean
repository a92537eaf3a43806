import Spdlogger.RideStateManager.Turns

namespace spdlogger.ride_state_manager

variable {Dispatcher Observer Tid : Type} [DecidableEq Dispatcher] [DecidableEq Observer]
  [Fintype Tid] [DecidableEq Tid]

omit [DecidableEq Observer] [DecidableEq Tid] in
/-- A dispatcher lives as long as an owner, the observer thread or a call has it. -/
theorem State.dispatcherAlive_iff {s : State Dispatcher Observer Tid} {dispatcher : Dispatcher} :
    s.dispatcherAlive dispatcher = true ↔ s.dispatcherOwned dispatcher = true ∨
      s.observerThread.holdsDispatcher dispatcher = true ∨
      ∃ thread, (s.callers thread).holdsDispatcher dispatcher = true := by
  simp [State.dispatcherAlive, or_assoc]

omit [DecidableEq Dispatcher] [DecidableEq Tid] in
/-- An observer lives as long as an owner, the observer thread or a call has it. -/
theorem State.observerAlive_iff {s : State Dispatcher Observer Tid} {observer : Observer} :
    s.observerAlive observer = true ↔ s.observerOwned observer = true ∨
      s.observerThread.holdsObserver observer = true ∨
      ∃ thread, (s.callers thread).holdsObserver observer = true := by
  simp [State.observerAlive, or_assoc]

omit [DecidableEq Observer] [DecidableEq Tid] in
/-- What a loop locks is the dispatcher of its entry, and alive. -/
theorem State.lockDispatcher_eq_some {s : State Dispatcher Observer Tid} {index : Nat}
    {dispatcher : Dispatcher} (hlock : s.lockDispatcher index = some dispatcher) :
    s.manager.observers[index]?.map ObserverData.dispatcher = some dispatcher ∧
      s.dispatcherAlive dispatcher := by
  obtain ⟨entry, hentry, halive⟩ := Option.bind_eq_some_iff.mp hlock
  rw [Option.ite_none_right_eq_some, Option.some.injEq] at halive
  obtain ⟨halive, rfl⟩ := halive
  exact ⟨by rw [hentry]; rfl, halive⟩

omit [DecidableEq Dispatcher] [DecidableEq Tid] in
/-- What a loop locks is the observer of its entry, and alive. -/
theorem State.lockObserver_eq_some {s : State Dispatcher Observer Tid} {index : Nat}
    {observer : Observer} (hlock : s.lockObserver index = some observer) :
    s.manager.observers[index]?.map ObserverData.observer = some observer ∧
      s.observerAlive observer := by
  obtain ⟨entry, hentry, halive⟩ := Option.bind_eq_some_iff.mp hlock
  rw [Option.ite_none_right_eq_some, Option.some.injEq] at halive
  obtain ⟨halive, rfl⟩ := halive
  exact ⟨by rw [hentry]; rfl, halive⟩

omit [DecidableEq Observer] in
theorem ObserverPhase.holdsDispatcher_of_copied {phase : ObserverPhase Dispatcher Observer}
    {dispatcher : Dispatcher} (hcopied : dispatcher ∈ phase.copied.map Prod.fst) :
    phase.holdsDispatcher dispatcher := by
  cases phase with
  | scanning => exact (Bool.or_eq_true _ _).mpr (.inl (decide_eq_true hcopied))
  | dispatching | inDispatch => exact decide_eq_true hcopied
  | _ => simp [ObserverPhase.copied] at hcopied

omit [DecidableEq Dispatcher] in
theorem ObserverPhase.holdsObserver_of_copied {phase : ObserverPhase Dispatcher Observer}
    {observer : Observer} (hcopied : observer ∈ phase.copied.map Prod.snd) :
    phase.holdsObserver observer := by
  cases phase with
  | scanning => exact (Bool.or_eq_true _ _).mpr (.inl (decide_eq_true hcopied))
  | dispatching | inDispatch => exact decide_eq_true hcopied
  | _ => simp [ObserverPhase.copied] at hcopied

/-- No object comes back: what is alive later was alive before. -/
structure State.Ages (s next : State Dispatcher Observer Tid) : Prop where
  dispatcher : ∀ dispatcher, next.dispatcherAlive dispatcher → s.dispatcherAlive dispatcher
  observer : ∀ observer, next.observerAlive observer → s.observerAlive observer

omit [DecidableEq Tid] in
/-- The observer thread takes new references to living objects only. -/
theorem State.Ages.of_thread {s next : State Dispatcher Observer Tid}
    (hdispatchers : next.dispatcherOwned = s.dispatcherOwned)
    (hobservers : next.observerOwned = s.observerOwned) (hcallers : next.callers = s.callers)
    (hdispatcher : ∀ d, next.observerThread.holdsDispatcher d → s.dispatcherAlive d)
    (hobserver : ∀ o, next.observerThread.holdsObserver o → s.observerAlive o) : s.Ages next := by
  constructor
  · intro d hd
    rw [State.dispatcherAlive_iff, hdispatchers, hcallers] at hd
    obtain howned | hthread | hcaller := hd
    · exact State.dispatcherAlive_iff.mpr (.inl howned)
    · exact hdispatcher d hthread
    · exact State.dispatcherAlive_iff.mpr (.inr (.inr hcaller))
  · intro o ho
    rw [State.observerAlive_iff, hobservers, hcallers] at ho
    obtain howned | hthread | hcaller := ho
    · exact State.observerAlive_iff.mpr (.inl howned)
    · exact hobserver o hthread
    · exact State.observerAlive_iff.mpr (.inr (.inr hcaller))

/-- A call takes new references to living objects only. -/
theorem State.Ages.of_caller {s next : State Dispatcher Observer Tid} {thread : Tid}
    {phase : CallerPhase Dispatcher Observer}
    (hdispatchers : next.dispatcherOwned = s.dispatcherOwned)
    (hobservers : next.observerOwned = s.observerOwned)
    (hthread : next.observerThread = s.observerThread)
    (hcallers : next.callers = Function.update s.callers thread phase)
    (hdispatcher : ∀ d, phase.holdsDispatcher d → s.dispatcherAlive d)
    (hobserver : ∀ o, phase.holdsObserver o → s.observerAlive o) : s.Ages next := by
  constructor
  · intro d hd
    rw [State.dispatcherAlive_iff, hdispatchers, hthread, hcallers,
      Function.exists_update_iff s.callers fun _ caller => caller.holdsDispatcher d = true] at hd
    obtain howned | hholds | hnow | ⟨other, _, hcaller⟩ := hd
    · exact State.dispatcherAlive_iff.mpr (.inl howned)
    · exact State.dispatcherAlive_iff.mpr (.inr (.inl hholds))
    · exact hdispatcher d hnow
    · exact State.dispatcherAlive_iff.mpr (.inr (.inr ⟨other, hcaller⟩))
  · intro o ho
    rw [State.observerAlive_iff, hobservers, hthread, hcallers,
      Function.exists_update_iff s.callers fun _ caller => caller.holdsObserver o = true] at ho
    obtain howned | hholds | hnow | ⟨other, _, hcaller⟩ := ho
    · exact State.observerAlive_iff.mpr (.inl howned)
    · exact State.observerAlive_iff.mpr (.inr (.inl hholds))
    · exact hobserver o hnow
    · exact State.observerAlive_iff.mpr (.inr (.inr ⟨other, hcaller⟩))

section Holders

variable {s : State Dispatcher Observer Tid} {dispatcher : Dispatcher} {observer : Observer}
  {thread : Tid} {caller : CallerPhase Dispatcher Observer}
  {phase : ObserverPhase Dispatcher Observer}

omit [DecidableEq Observer] [DecidableEq Tid] in
theorem State.dispatcherAlive_of_caller (hphase : s.callers thread = caller)
    (hholds : caller.holdsDispatcher dispatcher) : s.dispatcherAlive dispatcher :=
  State.dispatcherAlive_iff.mpr (.inr (.inr ⟨thread, hphase ▸ hholds⟩))

omit [DecidableEq Dispatcher] [DecidableEq Tid] in
theorem State.observerAlive_of_caller (hphase : s.callers thread = caller)
    (hholds : caller.holdsObserver observer) : s.observerAlive observer :=
  State.observerAlive_iff.mpr (.inr (.inr ⟨thread, hphase ▸ hholds⟩))

omit [DecidableEq Observer] [DecidableEq Tid] in
theorem State.dispatcherAlive_of_thread (hphase : s.observerThread = phase)
    (hholds : phase.holdsDispatcher dispatcher) : s.dispatcherAlive dispatcher :=
  State.dispatcherAlive_iff.mpr (.inr (.inl (hphase ▸ hholds)))

omit [DecidableEq Dispatcher] [DecidableEq Tid] in
theorem State.observerAlive_of_thread (hphase : s.observerThread = phase)
    (hholds : phase.holdsObserver observer) : s.observerAlive observer :=
  State.observerAlive_iff.mpr (.inr (.inl (hphase ▸ hholds)))

end Holders

/-- What a loop refers to after a step it did before, or it has locked it. -/
structure State.Locks (s : State Dispatcher Observer Tid) (index : Nat)
    (before after : Scan Dispatcher Observer) : Prop where
  dispatcher : ∀ d, after.dispatcher = some d → before.dispatcher = some d ∨
    s.lockDispatcher index = some d
  observer : ∀ o, after.observer = some o → before.observer = some o ∨
    s.lockObserver index = some o

/-- The outside owners keep what they have. -/
structure State.SameOwners (s next : State Dispatcher Observer Tid) : Prop where
  dispatchers : next.dispatcherOwned = s.dispatcherOwned
  observers : next.observerOwned = s.observerOwned

theorem State.locks_subscribeStep (s : State Dispatcher Observer Tid) (thread : Tid)
    (dispatcher : Dispatcher) (observer : Observer) (index : Nat)
    (scan : Scan Dispatcher Observer) :
    let next := s.subscribeStep thread dispatcher observer index scan
    s.SameOwners next ∧ ((∃ later after, next.callers = Function.update s.callers thread
        (.subscribing dispatcher observer later after) ∧ s.Locks index scan after) ∨
      ∃ result, next.callers = Function.update s.callers thread (.returned result)) := by
  have hmove := s.subscribeMove thread dispatcher observer index scan
  generalize s.subscribeStep thread dispatcher observer index scan = next at hmove ⊢
  cases hmove with
  | lockDispatcher =>
    exact ⟨⟨rfl, rfl⟩, .inl ⟨_, _, rfl, fun d hd => .inr hd, by simp [Scan.observer]⟩⟩
  | lockObserver =>
    exact ⟨⟨rfl, rfl⟩, .inl ⟨_, _, rfl, fun d hd => .inl hd, fun o ho => .inr ho⟩⟩
  | find | pass | erase =>
    exact ⟨⟨rfl, rfl⟩, .inl ⟨_, _, rfl, fun d hd => .inl hd, fun o ho => .inl ho⟩⟩
  | releaseObserver =>
    exact ⟨⟨rfl, rfl⟩, .inl ⟨_, _, rfl, fun d hd => .inl hd, by simp [Scan.observer]⟩⟩
  | next =>
    exact ⟨⟨rfl, rfl⟩, .inl ⟨_, _, rfl, by simp [Scan.dispatcher], by simp [Scan.observer]⟩⟩
  | append | reject => exact ⟨⟨rfl, rfl⟩, .inr ⟨_, rfl⟩⟩

omit [DecidableEq Dispatcher] in
theorem State.locks_unsubscribeStep (s : State Dispatcher Observer Tid) (thread : Tid)
    (observer : Observer) (index : Nat) (scan : Scan Dispatcher Observer) :
    let next := s.unsubscribeStep thread observer index scan
    s.SameOwners next ∧ ((∃ later after, next.callers = Function.update s.callers thread
        (.unsubscribing observer later after) ∧ after.dispatcher = none ∧
        ∀ o, after.observer = some o → scan.observer = some o ∨ s.lockObserver index = some o) ∨
      ∃ result, next.callers = Function.update s.callers thread (.returned result)) := by
  have hmove := s.unsubscribeMove thread observer index scan
  generalize s.unsubscribeStep thread observer index scan = next at hmove ⊢
  cases hmove with
  | lockObserver => exact ⟨⟨rfl, rfl⟩, .inl ⟨_, _, rfl, rfl, fun o ho => .inr ho⟩⟩
  | erase | pass | eraseExpired =>
    exact ⟨⟨rfl, rfl⟩, .inl ⟨_, _, rfl, rfl, fun o ho => .inl ho⟩⟩
  | next => exact ⟨⟨rfl, rfl⟩, .inl ⟨_, _, rfl, rfl, by simp [Scan.observer]⟩⟩
  | finish => exact ⟨⟨rfl, rfl⟩, .inr ⟨_, rfl⟩⟩

omit [DecidableEq Tid] in
theorem State.locks_snapshotStep (s : State Dispatcher Observer Tid)
    (notification : NotificationData) (healthyObservers : List (Dispatcher × Observer))
    (index : Nat) (scan : Scan Dispatcher Observer) :
    let next := s.snapshotStep notification healthyObservers index scan
    s.SameOwners next ∧
      ((∃ copied later after, next.observerThread = .scanning notification copied later after ∧
          s.Locks index scan after ∧ ∀ pair ∈ copied, pair ∈ healthyObservers ∨
            scan.dispatcher = some pair.1 ∧ scan.observer = some pair.2) ∨
        next.observerThread = .dispatching notification healthyObservers 0) := by
  have hmove := s.snapshotMove notification healthyObservers index scan
  generalize s.snapshotStep notification healthyObservers index scan = next at hmove ⊢
  cases hmove with
  | lockDispatcher =>
    refine ⟨⟨rfl, rfl⟩, .inl ⟨_, _, _, rfl, ⟨fun d hd => .inr hd, by simp [Scan.observer]⟩, ?_⟩⟩
    exact fun _ hpair => .inl hpair
  | leave => exact ⟨⟨rfl, rfl⟩, .inr rfl⟩
  | lockObserver =>
    refine ⟨⟨rfl, rfl⟩, .inl ⟨_, _, _, rfl, ⟨fun d hd => .inl hd, fun o ho => .inr ho⟩, ?_⟩⟩
    exact fun _ hpair => .inl hpair
  | copy =>
    refine ⟨⟨rfl, rfl⟩, .inl ⟨_, _, _, rfl, ⟨fun d hd => .inl hd, fun o ho => .inl ho⟩, ?_⟩⟩
    intro pair hpair
    obtain hearlier | hnow := List.mem_append.mp hpair
    · exact .inl hearlier
    · rw [List.mem_singleton.mp hnow]
      exact .inr ⟨rfl, rfl⟩
  | erase =>
    refine ⟨⟨rfl, rfl⟩, .inl ⟨_, _, _, rfl, ⟨fun d hd => .inl hd, fun o ho => .inl ho⟩, ?_⟩⟩
    exact fun _ hpair => .inl hpair
  | releaseObserver =>
    refine ⟨⟨rfl, rfl⟩, .inl ⟨_, _, _, rfl, ⟨fun d hd => .inl hd, by simp [Scan.observer]⟩, ?_⟩⟩
    exact fun _ hpair => .inl hpair
  | next =>
    refine ⟨⟨rfl, rfl⟩, .inl ⟨_, _, _, rfl, ⟨?_, by simp [Scan.observer]⟩, ?_⟩⟩
    · simp [Scan.dispatcher]
    · exact fun _ hpair => .inl hpair

theorem State.ages_subscribeStep {s : State Dispatcher Observer Tid} {thread : Tid}
    {dispatcher : Dispatcher} {observer : Observer} {index : Nat}
    {scan : Scan Dispatcher Observer}
    (hphase : s.callers thread = .subscribing dispatcher observer index scan) :
    s.Ages (s.subscribeStep thread dispatcher observer index scan) := by
  have hthread := (s.callFrame_subscribeStep thread dispatcher observer index scan).observerThread
  obtain ⟨⟨hdispatchers, hobservers⟩, ⟨later, after, hcallers, hlocks⟩ | ⟨result, hcallers⟩⟩ :=
    s.locks_subscribeStep thread dispatcher observer index scan
  · refine .of_caller hdispatchers hobservers hthread hcallers (fun d hd => ?_) fun o ho => ?_
    · simp only [CallerPhase.holdsDispatcher, Bool.or_eq_true, decide_eq_true_eq] at hd
      obtain hargument | hd := hd
      · exact State.dispatcherAlive_of_caller hphase (by simp [CallerPhase.holdsDispatcher, hargument])
      obtain hbefore | hlock := hlocks.dispatcher d hd
      · exact State.dispatcherAlive_of_caller hphase (by simp [CallerPhase.holdsDispatcher, hbefore])
      · exact (State.lockDispatcher_eq_some hlock).2
    · simp only [CallerPhase.holdsObserver, Bool.or_eq_true, decide_eq_true_eq] at ho
      obtain hargument | ho := ho
      · exact State.observerAlive_of_caller hphase (by simp [CallerPhase.holdsObserver, hargument])
      obtain hbefore | hlock := hlocks.observer o ho
      · exact State.observerAlive_of_caller hphase (by simp [CallerPhase.holdsObserver, hbefore])
      · exact (State.lockObserver_eq_some hlock).2
  · refine .of_caller hdispatchers hobservers hthread hcallers ?_ ?_ <;>
      simp [CallerPhase.holdsDispatcher, CallerPhase.holdsObserver]

theorem State.ages_unsubscribeStep {s : State Dispatcher Observer Tid} {thread : Tid}
    {observer : Observer} {index : Nat} {scan : Scan Dispatcher Observer}
    (hphase : s.callers thread = .unsubscribing observer index scan) :
    s.Ages (s.unsubscribeStep thread observer index scan) := by
  have hthread := (s.callFrame_unsubscribeStep thread observer index scan).observerThread
  obtain ⟨⟨hdispatchers, hobservers⟩, ⟨later, after, hcallers, hnone, hlocks⟩ | ⟨_, hcallers⟩⟩ :=
    s.locks_unsubscribeStep thread observer index scan
  · refine .of_caller hdispatchers hobservers hthread hcallers ?_ fun o ho => ?_
    · simp [CallerPhase.holdsDispatcher, hnone]
    · simp only [CallerPhase.holdsObserver, Bool.or_eq_true, decide_eq_true_eq] at ho
      obtain hargument | ho := ho
      · exact State.observerAlive_of_caller hphase (by simp [CallerPhase.holdsObserver, hargument])
      obtain hbefore | hlock := hlocks o ho
      · exact State.observerAlive_of_caller hphase (by simp [CallerPhase.holdsObserver, hbefore])
      · exact (State.lockObserver_eq_some hlock).2
  · refine .of_caller hdispatchers hobservers hthread hcallers ?_ ?_ <;>
      simp [CallerPhase.holdsDispatcher, CallerPhase.holdsObserver]

omit [DecidableEq Tid] in
theorem State.ages_snapshotStep {s : State Dispatcher Observer Tid}
    {notification : NotificationData} {healthyObservers : List (Dispatcher × Observer)}
    {index : Nat} {scan : Scan Dispatcher Observer}
    (hphase : s.observerThread = .scanning notification healthyObservers index scan) :
    s.Ages (s.snapshotStep notification healthyObservers index scan) := by
  have hcallers : (s.snapshotStep notification healthyObservers index scan).callers = s.callers := by
    have hmove := s.snapshotMove notification healthyObservers index scan
    generalize s.snapshotStep notification healthyObservers index scan = next at hmove
    cases hmove <;> rfl
  have hcopied (d : Dispatcher) (hd : d ∈ healthyObservers.map Prod.fst) : s.dispatcherAlive d :=
    State.dispatcherAlive_of_thread hphase (ObserverPhase.holdsDispatcher_of_copied hd)
  have hcopiedObserver (o : Observer) (ho : o ∈ healthyObservers.map Prod.snd) :
      s.observerAlive o :=
    State.observerAlive_of_thread hphase (ObserverPhase.holdsObserver_of_copied ho)
  have hscan (d : Dispatcher) (hd : scan.dispatcher = some d) : s.dispatcherAlive d :=
    State.dispatcherAlive_of_thread hphase (by simp [ObserverPhase.holdsDispatcher, hd])
  have hscanObserver (o : Observer) (ho : scan.observer = some o) : s.observerAlive o :=
    State.observerAlive_of_thread hphase (by simp [ObserverPhase.holdsObserver, ho])
  obtain ⟨⟨hdispatchers, hobservers⟩, ⟨copied, later, after, hthread, hlocks, hpairs⟩ | hthread⟩ :=
    s.locks_snapshotStep notification healthyObservers index scan
  · refine .of_thread hdispatchers hobservers hcallers (fun d hd => ?_) fun o ho => ?_
    · simp only [hthread, ObserverPhase.holdsDispatcher, Bool.or_eq_true, decide_eq_true_eq] at hd
      obtain hcopy | hd := hd
      · obtain ⟨pair, hpair, rfl⟩ := List.mem_map.mp hcopy
        obtain hearlier | ⟨hnow, _⟩ := hpairs pair hpair
        · exact hcopied _ (List.mem_map_of_mem hearlier)
        · exact hscan _ hnow
      · obtain hbefore | hlock := hlocks.dispatcher d hd
        · exact hscan d hbefore
        · exact (State.lockDispatcher_eq_some hlock).2
    · simp only [hthread, ObserverPhase.holdsObserver, Bool.or_eq_true, decide_eq_true_eq] at ho
      obtain hcopy | ho := ho
      · obtain ⟨pair, hpair, rfl⟩ := List.mem_map.mp hcopy
        obtain hearlier | ⟨_, hnow⟩ := hpairs pair hpair
        · exact hcopiedObserver _ (List.mem_map_of_mem hearlier)
        · exact hscanObserver _ hnow
      · obtain hbefore | hlock := hlocks.observer o ho
        · exact hscanObserver o hbefore
        · exact (State.lockObserver_eq_some hlock).2
  · refine .of_thread hdispatchers hobservers hcallers (fun d hd => ?_) fun o ho => ?_
    · exact hcopied d (by simpa [hthread, ObserverPhase.holdsDispatcher] using hd)
    · exact hcopiedObserver o (by simpa [hthread, ObserverPhase.holdsObserver] using ho)

theorem State.ages_callerStep {s next : State Dispatcher Observer Tid} {thread : Tid}
    (hstep : s.callerStep thread = some next) : s.Ages next := by
  obtain ⟨_, _, _, hnext⟩ | hloop | hloop := State.callerStep_cases hstep
  · obtain rfl | ⟨phase, rfl, hphase⟩ := hnext
    · refine .of_caller rfl rfl rfl rfl ?_ ?_ <;>
        simp [CallerPhase.holdsDispatcher, CallerPhase.holdsObserver]
    · obtain ⟨dispatcher, observer, hbefore, rfl⟩ | ⟨observer, hbefore, rfl⟩ := hphase
      · refine .of_caller rfl rfl rfl rfl (fun d hd => ?_) fun o ho => ?_
        · exact State.dispatcherAlive_of_caller hbefore
            (by simpa [CallerPhase.holdsDispatcher, Scan.dispatcher] using hd)
        · exact State.observerAlive_of_caller hbefore
            (by simpa [CallerPhase.holdsObserver, Scan.observer] using ho)
      · refine .of_caller rfl rfl rfl rfl ?_ fun o ho => ?_
        · simp [CallerPhase.holdsDispatcher, Scan.dispatcher]
        · exact State.observerAlive_of_caller hbefore
            (by simpa [CallerPhase.holdsObserver, Scan.observer] using ho)
  · obtain ⟨dispatcher, observer, index, scan, hphase, rfl⟩ := hloop
    exact State.ages_subscribeStep hphase
  · obtain ⟨observer, index, scan, hphase, rfl⟩ := hloop
    exact State.ages_unsubscribeStep hphase

omit [DecidableEq Tid] in
/-- The owner of a dispatcher takes a reference to it while it lives, or gives one up. -/
theorem State.ages_dispatcherOwned {s : State Dispatcher Observer Tid} {dispatcher : Dispatcher}
    {value : Bool} (halive : value → s.dispatcherAlive dispatcher) :
    s.Ages { s with dispatcherOwned := Function.update s.dispatcherOwned dispatcher value } := by
  refine ⟨fun d hd => ?_, fun o ho => ho⟩
  obtain howned | hothers := State.dispatcherAlive_iff.mp hd
  · change Function.update s.dispatcherOwned dispatcher value d = true at howned
    by_cases hsame : d = dispatcher
    · rw [hsame, Function.update_self] at howned
      exact hsame ▸ halive howned
    · rw [Function.update_of_ne hsame] at howned
      exact State.dispatcherAlive_iff.mpr (.inl howned)
  · exact State.dispatcherAlive_iff.mpr (.inr hothers)

omit [DecidableEq Tid] in
/-- An owner takes a reference to an object that is alive only. -/
theorem State.ages_observerOwned {s : State Dispatcher Observer Tid} {observer : Observer}
    {value : Bool} (halive : value → s.observerAlive observer) :
    s.Ages { s with observerOwned := Function.update s.observerOwned observer value } := by
  refine ⟨fun d hd => hd, fun o ho => ?_⟩
  obtain howned | hothers := State.observerAlive_iff.mp ho
  · change Function.update s.observerOwned observer value o = true at howned
    by_cases hsame : o = observer
    · rw [hsame, Function.update_self] at howned
      exact hsame ▸ halive howned
    · rw [Function.update_of_ne hsame] at howned
      exact State.observerAlive_iff.mpr (.inl howned)
  · exact State.observerAlive_iff.mpr (.inr hothers)

theorem State.ages_owner {s next : State Dispatcher Observer Tid}
    {action : Action Dispatcher Observer Tid} (howner : action.isOwner)
    (hstep : s.step action = some next) : s.Ages next := by
  cases action with
  | retainDispatcher dispatcher =>
    simp only [State.step, Option.ite_none_right_eq_some, Option.some.injEq] at hstep
    obtain ⟨halive, rfl⟩ := hstep
    exact State.ages_dispatcherOwned fun _ => halive
  | releaseDispatcher dispatcher =>
    simp only [State.step, Option.some.injEq] at hstep
    subst hstep
    exact State.ages_dispatcherOwned (by simp)
  | retainObserver observer =>
    simp only [State.step, Option.ite_none_right_eq_some, Option.some.injEq] at hstep
    obtain ⟨halive, rfl⟩ := hstep
    exact State.ages_observerOwned fun _ => halive
  | releaseObserver observer =>
    simp only [State.step, Option.some.injEq] at hstep
    subst hstep
    exact State.ages_observerOwned (by simp)
  | _ => cases howner

/-- No step brings an object back. -/
theorem State.ages_step {s next : State Dispatcher Observer Tid}
    {action : Action Dispatcher Observer Tid} (hstep : s.step action = some next) :
    s.Ages next := by
  cases State.turn_of_step hstep with
  | elsewhere hframe hdispatchers hobservers hthread =>
    obtain hsame | ⟨_, hafter⟩ := hthread
    · exact .of_thread hdispatchers hobservers hframe.callers
        (fun d hd => State.dispatcherAlive_of_thread hsame.symm hd)
        fun o ho => State.observerAlive_of_thread hsame.symm ho
    · refine .of_thread hdispatchers hobservers hframe.callers ?_ ?_
      · simp [ObserverPhase.holdsDispatcher_of_resting hafter]
      · simp [ObserverPhase.holdsObserver_of_resting hafter]
  | owner _ _ howner => exact State.ages_owner howner hstep
  | call thread phase _ _ hdispatcher hobserver hnext =>
    subst hnext
    exact .of_caller rfl rfl rfl rfl hdispatcher hobserver
  | callerStep thread hcaller => exact State.ages_callerStep hcaller
  | lock notification hphase hfree hnext =>
    subst hnext
    refine .of_thread rfl rfl rfl ?_ ?_ <;>
      simp [ObserverPhase.holdsDispatcher, ObserverPhase.holdsObserver, Scan.dispatcher,
        Scan.observer]
  | scan notification healthyObservers index scan hphase hnext =>
    subst hnext
    exact State.ages_snapshotStep hphase
  | dispatch _ _ _ _ hphase _ hnext | resume _ _ _ hphase hnext =>
    subst hnext
    exact .of_thread rfl rfl rfl (fun d hd => State.dispatcherAlive_of_thread hphase hd)
      fun o ho => State.observerAlive_of_thread hphase ho
  | finish _ _ _ _ _ hnext =>
    subst hnext
    refine .of_thread rfl rfl rfl ?_ ?_ <;>
      simp [ObserverPhase.holdsDispatcher, ObserverPhase.holdsObserver]

omit [DecidableEq Tid] in
/-- A weak pointer that could not be locked never can be again. -/
theorem State.Ages.lockDispatcher {s next : State Dispatcher Observer Tid} (h : s.Ages next)
    (hobservers : next.manager.observers = s.manager.observers) {index : Nat}
    (hlock : s.lockDispatcher index = none) : next.lockDispatcher index = none := by
  unfold State.lockDispatcher at hlock ⊢
  rw [hobservers]
  rw [Option.bind_eq_none_iff] at hlock ⊢
  intro entry hentry
  have hgone := hlock entry hentry
  rw [ite_eq_right_iff] at hgone ⊢
  exact fun halive => hgone (h.dispatcher _ halive)

omit [DecidableEq Tid] in
/-- What could not be locked cannot be locked later. -/
theorem State.Ages.lockObserver {s next : State Dispatcher Observer Tid} (h : s.Ages next)
    (hobservers : next.manager.observers = s.manager.observers) {index : Nat}
    (hlock : s.lockObserver index = none) : next.lockObserver index = none := by
  unfold State.lockObserver at hlock ⊢
  rw [hobservers]
  rw [Option.bind_eq_none_iff] at hlock ⊢
  intro entry hentry
  have hgone := hlock entry hentry
  rw [ite_eq_right_iff] at hgone ⊢
  exact fun halive => hgone (h.observer _ halive)

end spdlogger.ride_state_manager
