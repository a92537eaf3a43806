import Spdlogger.RideStateManager.Interleaved
import Spdlogger.RideStateManager.Turns

namespace spdlogger.ride_state_manager

variable {Dispatcher Observer Tid : Type} [DecidableEq Dispatcher] [DecidableEq Observer]
  [Fintype Tid] [DecidableEq Tid]

/-- The quiet steps look at the observer thread only for the shared pointers it holds, and at the
destructor not at all. -/
theorem State.step_of_quiet {s next : State Dispatcher Observer Tid}
    {action : Action Dispatcher Observer Tid} {phase : ObserverPhase Dispatcher Observer}
    (destructor : DestructorPhase) (hquiet : action.quiet)
    (hdispatcher : ∀ d, phase.holdsDispatcher d = s.observerThread.holdsDispatcher d)
    (hobserver : ∀ o, phase.holdsObserver o = s.observerThread.holdsObserver o)
    (hstep : s.step action = some next) :
    State.step { s with observerThread := phase, destructor } action =
      some { next with observerThread := phase, destructor } := by
  have hdispatchers :
      State.dispatcherAlive { s with observerThread := phase, destructor } = s.dispatcherAlive := by
    funext d
    simp only [State.dispatcherAlive, hdispatcher]
  have hobservers :
      State.observerAlive { s with observerThread := phase, destructor } = s.observerAlive := by
    funext o
    simp only [State.observerAlive, hobserver]
  cases action with
  | setStop | releaseDispatcher | releaseObserver =>
    simp only [State.step, Option.some.injEq] at hstep
    subst hstep
    rfl
  | subscribe thread dispatcher observer =>
    cases dispatcher <;> cases observer <;>
      simp only [State.step, State.call, Option.ite_none_right_eq_some, Option.some.injEq,
        hdispatchers, hobservers] at hstep ⊢ <;>
      exact ⟨hstep.1, hstep.2 ▸ rfl⟩
  | unsubscribe thread observer =>
    cases observer <;>
      simp only [State.step, State.call, Option.ite_none_right_eq_some, Option.some.injEq,
        hdispatchers, hobservers] at hstep ⊢ <;>
      exact ⟨hstep.1, hstep.2 ▸ rfl⟩
  | retainDispatcher | retainObserver =>
    simp only [State.step, Option.ite_none_right_eq_some, Option.some.injEq, hdispatchers,
      hobservers] at hstep ⊢
    exact ⟨hstep.1, hstep.2 ▸ rfl⟩
  | run | changeState | callerStep | observerStep | spuriousWake | destructorStep => cases hquiet

omit [DecidableEq Tid] in
/-- The observer thread's loop does not look at the destructor. -/
theorem State.snapshotStep_destructor (s : State Dispatcher Observer Tid)
    (destructor : DestructorPhase) (notification : NotificationData)
    (healthyObservers : List (Dispatcher × Observer)) (index : Nat)
    (scan : Scan Dispatcher Observer) :
    State.snapshotStep { s with destructor } notification healthyObservers index scan =
      { s.snapshotStep notification healthyObservers index scan with destructor } := by
  cases scan with
  | lockingDispatcher =>
    simp only [State.snapshotStep]
    split <;> rfl
  | deciding dispatcher observer => cases dispatcher <;> cases observer <;> rfl
  | lockingObserver | releasingObserver | releasingDispatcher => rfl

omit [DecidableEq Tid] in
/-- The observer thread does not look at the destructor. -/
theorem State.observerStep_destructor {s next : State Dispatcher Observer Tid}
    (destructor : DestructorPhase) (hphase : s.observerThread ≠ .acquiring)
    (hstep : s.observerStep = some next) :
    State.observerStep { s with destructor } = some { next with destructor } := by
  cases hthread : s.observerThread with
  | acquiring => exact absurd hthread hphase
  | notStarted | blocked | exited => simp [State.observerStep, hthread] at hstep
  | testingStop | inDispatch =>
    simp only [State.observerStep, hthread, Option.some.injEq] at hstep ⊢
    exact hstep ▸ rfl
  | popped notification =>
    simp only [State.observerStep, hthread, Option.ite_none_right_eq_some,
      Option.some.injEq] at hstep ⊢
    exact ⟨hstep.1, hstep.2 ▸ rfl⟩
  | scanning notification healthyObservers index scan =>
    simp only [State.observerStep, hthread, Option.some.injEq] at hstep ⊢
    rw [← hthread, State.snapshotStep_destructor, hstep]
  | dispatching notification healthyObservers index =>
    simp only [State.observerStep, hthread] at hstep ⊢
    split at hstep <;> cases hstep <;> rfl

section Acquiring

variable {s : State Dispatcher Observer Tid}

omit [DecidableEq Tid] in
/-- With nothing queued and no shutdown, the wait blocks. -/
theorem State.observerStep_sleep (hphase : s.observerThread = .acquiring)
    (hfree : s.notificationsMutex = none) (hlive : s.manager.isShuttingDown = false)
    (hqueue : s.manager.notificationsQueue = []) :
    s.observerStep = some { s with observerThread := .blocked } := by
  have hidle : (!s.manager.isShuttingDown && s.manager.notificationsQueue.isEmpty) = true := by
    simp [hlive, hqueue]
  simp only [State.observerStep, hphase, if_pos hfree, if_pos hidle]

omit [DecidableEq Tid] in
/-- With nothing queued and the shutdown begun, the thread leaves. -/
theorem State.observerStep_leave (hphase : s.observerThread = .acquiring)
    (hfree : s.notificationsMutex = none) (hshutting : s.manager.isShuttingDown = true)
    (hqueue : s.manager.notificationsQueue = []) :
    s.observerStep = some { s with observerThread := .exited } := by
  have hbusy : ¬ (!s.manager.isShuttingDown && s.manager.notificationsQueue.isEmpty) = true := by
    simp [hshutting]
  have hdone : (s.manager.isShuttingDown && s.manager.notificationsQueue.isEmpty) = true := by
    simp [hshutting, hqueue]
  simp only [State.observerStep, hphase, if_pos hfree, if_neg hbusy, if_pos hdone]

omit [DecidableEq Tid] in
/-- With something queued, the thread pops the first notification. -/
theorem State.observerStep_pop {notification : NotificationData} {rest : List NotificationData}
    (hphase : s.observerThread = .acquiring) (hfree : s.notificationsMutex = none)
    (hqueue : s.manager.notificationsQueue = notification :: rest) :
    s.observerStep = some { s with
      manager := { s.manager with notificationsQueue := rest }
      observerThread := .popped notification
      popped := s.popped ++ [notification] } := by
  simp only [State.observerStep, hphase, if_pos hfree, hqueue, List.isEmpty_cons, Bool.and_false,
    Bool.false_eq_true, if_false]

end Acquiring

/-- What the threads outside see of a section: from the step on that does its work, as
if it were at its end. -/
def Interleaved.committed (s : Interleaved Dispatcher Observer Tid) :
    State Dispatcher Observer Tid :=
  match s.inside with
  | some .notifying => { s.ride with observerThread := s.ride.observerThread.notified }
  | some (.unlocking phase) => { s.ride with observerThread := phase }
  | some .flagSet => { s.ride with destructor := .notifying }
  | _ => s.ride

/-- The steps of a section come down to one, at which it does its work. -/
theorem Interleaved.committed_proceed {s next : Interleaved Dispatcher Observer Tid} (h : s.Sound)
    (hstep : s.proceed = some next) : next.committed = s.committed ∨
      ∃ action, s.committed.step action = some next.committed := by
  cases Interleaved.move_of_proceed hstep with
  | push call hinside haccepts =>
    obtain ⟨hmutex, _⟩ := h _ hinside
    simp only [Interleaved.committed, hinside]
    refine .inr ⟨.changeState call, ?_⟩
    show s.ride.changeState call = _
    simp only [State.changeState, if_pos hmutex,
      RideStateManagerTest.tryChangingState_of_accepts haccepts, if_true]
  | sleep hinside hlive hqueue =>
    obtain ⟨hmutex, hacquiring⟩ := h _ hinside
    simp only [Interleaved.committed, hinside]
    exact .inr ⟨.observerStep, State.observerStep_sleep hacquiring hmutex hlive hqueue⟩
  | leave hinside hshutting hqueue =>
    obtain ⟨hmutex, hacquiring, _⟩ := h _ hinside
    simp only [Interleaved.committed, hinside]
    exact .inr ⟨.observerStep, State.observerStep_leave hacquiring hmutex hshutting hqueue⟩
  | pop notification rest hinside hqueue =>
    obtain ⟨hmutex, hacquiring, _⟩ := h _ hinside
    simp only [Interleaved.committed, hinside]
    exact .inr ⟨.observerStep, State.observerStep_pop hacquiring hmutex hqueue⟩
  | retry hinside hlive hqueue =>
    obtain ⟨_, _, hready⟩ := h _ hinside
    rw [hready hqueue] at hlive
    cases hlive
  | setFlag hinside =>
    obtain ⟨hmutex, halive⟩ := h _ hinside
    have hdestructor : s.ride.destructor = .alive := halive
    simp only [Interleaved.committed, hinside]
    refine .inr ⟨.destructorStep, ?_⟩
    simp only [State.step, State.destructorStep, hdestructor, if_pos hmutex]
  | refuse _ hinside | notify hinside | finish hinside | find hinside | unlock _ hinside
  | destroy hinside =>
    refine .inl ?_
    simp only [Interleaved.committed, hinside]

omit [DecidableEq Tid] in
/-- Only the wait blocks. -/
theorem State.observerStep_ne_blocked {s next : State Dispatcher Observer Tid}
    (hphase : s.observerThread ≠ .acquiring) (hstep : s.observerStep = some next) :
    next.observerThread ≠ .blocked := by
  cases State.observerMove_of_step hstep with
  | sleep hacquiring => exact absurd hacquiring hphase
  | scan notification healthyObservers index scan =>
    have hmove := s.snapshotMove notification healthyObservers index scan
    generalize s.snapshotStep notification healthyObservers index scan = next at hmove
    cases hmove <;> simp
  | stop | goOn | leave | pop | lock | dispatch | finish | resume => simp

/-- Only the test of the predicate puts the observer thread to sleep. -/
theorem State.ne_blocked_of_step {s next : State Dispatcher Observer Tid}
    {action : Action Dispatcher Observer Tid}
    (hother : action = .observerStep → s.observerThread ≠ .acquiring)
    (hawake : s.observerThread ≠ .blocked) (hstep : s.step action = some next) :
    next.observerThread ≠ .blocked := by
  cases State.move_of_step hstep with
  | setStop hnext => simpa [hnext] using hawake
  | run _ _ hnext | spuriousWake _ hnext => simp [hnext]
  | changeState hstep =>
    obtain ⟨_, ⟨_, rfl⟩ | ⟨_, rfl⟩⟩ := State.changeState_cases hstep
    · simpa [ObserverPhase.notified_of_ne hawake] using hawake
    · exact hawake
  | observerStep hstep => exact State.observerStep_ne_blocked (hother rfl) hstep
  | destructorStep hstep =>
    obtain ⟨_, _, rfl⟩ | ⟨_, rfl⟩ | ⟨_, rfl⟩ | ⟨_, _, rfl⟩ := State.destructorStep_cases hstep
    · exact hawake
    · simpa [ObserverPhase.notified_of_ne hawake] using hawake
    · exact hawake
    · exact hawake
  | other _ hframe =>
    rw [hframe.observerThread]
    exact hawake

/-- Steps that find the observer thread at its wait find no difference if it is through
with it. -/
theorem State.step_waiting {s next : State Dispatcher Observer Tid}
    {action : Action Dispatcher Observer Tid} {phase : ObserverPhase Dispatcher Observer}
    (hwaits : s.observerThread = .blocked ∨ s.observerThread = .acquiring)
    (hphase : phase = .acquiring ∨ phase.Left)
    (hkind : action.quiet = true ∨ action = .destructorStep ∧ s.destructor ≠ .alive)
    (hstep : s.step action = some next) :
    (next.observerThread = .blocked ∨ next.observerThread = .acquiring) ∧
      State.step { s with observerThread := phase } action =
        some { next with observerThread := phase } := by
  have hnotified : phase.notified = phase := by
    rcases hphase with rfl | hleft
    · rfl
    · cases hleft <;> rfl
  have hstarted : phase ≠ .notStarted := by
    rcases hphase with rfl | hleft
    · simp
    · cases hleft <;> simp
  obtain hquiet | ⟨rfl, halive⟩ := hkind
  · have hbefore : s.observerThread.resting := by
      rcases hwaits with hwaits | hwaits <;> rw [hwaits] <;> rfl
    have hafter : phase.resting := by
      rcases hphase with rfl | hleft
      · rfl
      · cases hleft <;> rfl
    have hdispatcher (d : Dispatcher) :
        phase.holdsDispatcher d = s.observerThread.holdsDispatcher d := by
      rw [ObserverPhase.holdsDispatcher_of_resting hbefore,
        ObserverPhase.holdsDispatcher_of_resting hafter]
    have hobserver (o : Observer) : phase.holdsObserver o = s.observerThread.holdsObserver o := by
      rw [ObserverPhase.holdsObserver_of_resting hbefore,
        ObserverPhase.holdsObserver_of_resting hafter]
    have hsame := State.step_of_quiet s.destructor hquiet hdispatcher hobserver hstep
    obtain ⟨stop, callers, dispatcherOwned, observerOwned, rfl⟩ :=
      State.quiet_of_step hquiet hstep
    exact ⟨hwaits, hsame⟩
  · obtain ⟨hphase, _⟩ | ⟨hdestructor, rfl⟩ | ⟨hdestructor, rfl⟩ | ⟨_, hexited, _⟩ :=
      State.destructorStep_cases hstep
    · exact absurd hphase halive
    · refine ⟨.inr ?_, ?_⟩
      · rcases hwaits with hwaits | hwaits <;> simp [hwaits, ObserverPhase.notified]
      · simp [State.step, State.destructorStep, hdestructor, hnotified]
    · refine ⟨hwaits, ?_⟩
      have hrunning : s.observerThread ≠ .notStarted := by
        rcases hwaits with hwaits | hwaits <;> simp [hwaits]
      simp [State.step, State.destructorStep, hdestructor, hstarted, hrunning]
    · rcases hwaits with hwaits | hwaits <;> simp [hwaits] at hexited

/-- With somebody inside and the observer thread at its wait, the rest can wake it, take
quiet steps, or go on destroying the manager. -/
theorem Interleaved.kind_of_allows {s : Interleaved Dispatcher Observer Tid}
    {action : Action Dispatcher Observer Tid} {ride : State Dispatcher Observer Tid}
    (hinside : s.inside ≠ none)
    (hwaits : s.ride.observerThread = .blocked ∨ s.ride.observerThread = .acquiring)
    (hallows : s.allows action) (hride : s.ride.step action = some ride) :
    action = .spuriousWake ∨ action.quiet = true ∨
      action = .destructorStep ∧ s.ride.destructor ≠ .alive := by
  cases action with
  | setStop | subscribe | unsubscribe | retainDispatcher | releaseDispatcher
  | retainObserver | releaseObserver => exact .inr (.inl rfl)
  | spuriousWake => exact .inl rfl
  | destructorStep => exact .inr (.inr ⟨rfl, by simpa [Interleaved.allows] using hallows⟩)
  | changeState => cases hallows
  | callerStep => exact absurd (Option.isNone_iff_eq_none.mp hallows) hinside
  | observerStep =>
    rcases hwaits with hwaits | hwaits
    · simp [State.step, State.observerStep, hwaits] at hride
    · simp [Interleaved.allows, hwaits] at hallows
  | run => rcases hwaits with hwaits | hwaits <;> simp [State.step, hwaits] at hride

/-- What is done between a push and its notification can as well be done behind it. -/
theorem Interleaved.step_notified {s : Interleaved Dispatcher Observer Tid}
    {action : Action Dispatcher Observer Tid} {ride : State Dispatcher Observer Tid}
    (hinside : s.inside ≠ none) (hallows : s.allows action)
    (hride : s.ride.step action = some ride) :
    { ride with observerThread := ride.observerThread.notified } =
        { s.ride with observerThread := s.ride.observerThread.notified } ∨
      State.step { s.ride with observerThread := s.ride.observerThread.notified } action =
        some { ride with observerThread := ride.observerThread.notified } := by
  by_cases hblocked : s.ride.observerThread = .blocked
  · obtain rfl | hkind := Interleaved.kind_of_allows hinside (.inl hblocked) hallows hride
    · simp only [State.step, Option.ite_none_right_eq_some, Option.some.injEq] at hride
      obtain ⟨_, rfl⟩ := hride
      rw [hblocked]
      exact .inl rfl
    · obtain ⟨hwaits, hsame⟩ := State.step_waiting (.inl hblocked) (.inl rfl) hkind hride
      have hnotified : ride.observerThread.notified = .acquiring := by
        rcases hwaits with hwaits | hwaits <;> rw [hwaits] <;> rfl
      rw [hblocked, hnotified]
      exact .inr hsame
  · have hawake : ride.observerThread ≠ .blocked := by
      refine State.ne_blocked_of_step ?_ hblocked hride
      rintro rfl
      simpa [Interleaved.allows] using hallows
    rw [ObserverPhase.notified_of_ne hblocked, ObserverPhase.notified_of_ne hawake]
    exact .inr hride

/-- What is done before the destructor has left the mutex can as well be done after it. -/
theorem Interleaved.step_flagSet {s : Interleaved Dispatcher Observer Tid}
    {action : Action Dispatcher Observer Tid} {ride : State Dispatcher Observer Tid}
    (hinside : s.inside = some .flagSet) (halive : s.ride.destructor = .alive)
    (hallows : s.allows action) (hride : s.ride.step action = some ride) :
    State.step { s.ride with destructor := .notifying } action =
      some { ride with destructor := .notifying } := by
  cases action with
  | setStop | subscribe | unsubscribe | retainDispatcher | releaseDispatcher
  | retainObserver | releaseObserver =>
    have hsame := State.step_of_quiet .notifying rfl (fun _ => rfl) (fun _ => rfl) hride
    obtain ⟨stop, callers, dispatcherOwned, observerOwned, rfl⟩ := State.quiet_of_step rfl hride
    exact hsame
  | observerStep =>
    have hphase : s.ride.observerThread ≠ .acquiring := by simpa [Interleaved.allows] using hallows
    exact State.observerStep_destructor .notifying hphase hride
  | spuriousWake =>
    simp only [State.step, Option.ite_none_right_eq_some, Option.some.injEq] at hride ⊢
    exact ⟨hride.1, hride.2 ▸ rfl⟩
  | changeState => cases hallows
  | callerStep | run => simp [Interleaved.allows, hinside] at hallows
  | destructorStep => simp [Interleaved.allows, halive] at hallows

/-- The steps that a section does not take apart are the same from its end. -/
theorem Interleaved.committed_ride {s : Interleaved Dispatcher Observer Tid} (h : s.Sound)
    {action : Action Dispatcher Observer Tid} {ride : State Dispatcher Observer Tid}
    (hallows : s.allows action) (hride : s.ride.step action = some ride) :
    { s with ride }.committed = s.committed ∨
      ∃ action, s.committed.step action = some { s with ride }.committed := by
  cases hinside : s.inside with
  | none =>
    simp only [Interleaved.committed, hinside]
    exact .inr ⟨action, hride⟩
  | some phase =>
    have hsome : s.inside ≠ none := by simp [hinside]
    obtain ⟨_, hfits⟩ := h phase hinside
    simp only [Interleaved.committed, hinside]
    cases phase with
    | testingChange | returning | testingPredicate | checking | settingFlag =>
      exact .inr ⟨action, hride⟩
    | notifying =>
      exact (Interleaved.step_notified hsome hallows hride).imp_right fun hsame => ⟨action, hsame⟩
    | unlocking phase =>
      obtain ⟨hacquiring, hleft⟩ := hfits
      obtain rfl | hkind := Interleaved.kind_of_allows hsome (.inr hacquiring) hallows hride
      · simp [State.step, hacquiring] at hride
      · exact .inr ⟨action, (State.step_waiting (.inr hacquiring) (.inr hleft) hkind hride).2⟩
    | flagSet => exact .inr ⟨action, Interleaved.step_flagSet hinside hfits hallows hride⟩

omit [DecidableEq Dispatcher] [DecidableEq Observer] [Fintype Tid] [DecidableEq Tid] in
/-- The begin of a section commits nothing yet. -/
theorem Interleaved.committed_enter {s next : Interleaved Dispatcher Observer Tid}
    {phase : InsidePhase Dispatcher Observer} (hentered : s.enter phase = some next) :
    s.committed = s.ride ∧ next = { s with inside := some phase } := by
  simp only [Interleaved.enter, Option.ite_none_right_eq_some, Option.some.injEq,
    Option.isNone_iff_eq_none] at hentered
  obtain ⟨⟨_, hinside⟩, rfl⟩ := hentered
  simp [Interleaved.committed, hinside]

/-- A step of the sections commits nothing, or one step of the manager. -/
theorem Interleaved.committed_step {s next : Interleaved Dispatcher Observer Tid} (h : s.Sound)
    {action : InterleavedAction Dispatcher Observer Tid} (hstep : s.step action = some next) :
    next.committed = s.committed ∨
      ∃ action, s.committed.step action = some next.committed := by
  cases action with
  | changeState call =>
    obtain ⟨hcommitted, rfl⟩ := Interleaved.committed_enter hstep
    exact .inl hcommitted.symm
  | wait | destroy =>
    simp only [Interleaved.step, Option.ite_none_right_eq_some] at hstep
    obtain ⟨hcommitted, rfl⟩ := Interleaved.committed_enter hstep.2
    exact .inl hcommitted.symm
  | proceed => exact Interleaved.committed_proceed h hstep
  | ride action =>
    simp only [Interleaved.step, Option.ite_none_right_eq_some, Option.map_eq_some_iff] at hstep
    obtain ⟨hallows, ride, hride, rfl⟩ := hstep
    exact Interleaved.committed_ride h hallows hride

/-- To take the sections apart adds nothing: each takes effect at one of its steps. -/
theorem interleaved_simulates : (interleavedMachine Dispatcher Observer Tid).Simulates
    (rideMachine Dispatcher Observer Tid) (fun s ride => s.committed = ride) where
  init := by
    rintro s ⟨hinit, hinside⟩
    refine ⟨s.ride, hinit, ?_⟩
    simp [Interleaved.committed, hinside]
  step := by
    rintro s action next ride hreach rfl hstep
    obtain hsame | ⟨action, hride⟩ := Interleaved.committed_step (Interleaved.sound hreach) hstep
    · exact ⟨[], s.committed, rfl, hsame⟩
    · refine ⟨[action], next.committed, ?_, rfl⟩
      rw [transition.Machine.run]
      exact Option.bind_eq_some_iff.mpr ⟨next.committed, hride, rfl⟩

/-- What the sections have committed is a reachable state of the manager. -/
theorem Interleaved.committed_reachable {s : Interleaved Dispatcher Observer Tid}
    (hreach : (interleavedMachine Dispatcher Observer Tid).Reachable s) :
    (rideMachine Dispatcher Observer Tid).Reachable s.committed := by
  obtain ⟨ride, hride, rfl⟩ := interleaved_simulates.reachable hreach
  exact hride

/-- Nor does it take anything away: an atomic section is one that nobody interrupts. -/
theorem ride_simulates : (rideMachine Dispatcher Observer Tid).Simulates
    (interleavedMachine Dispatcher Observer Tid) (fun ride s => s = { ride }) where
  init := fun ride hinit => ⟨{ ride }, ⟨hinit, rfl⟩, rfl⟩
  step := by
    rintro ride action next s _ rfl hstep
    have hplain (hallows : Interleaved.allows { ride } action = true) :
        ∃ schedule last, (interleavedMachine Dispatcher Observer Tid).run { ride } schedule =
          some last ∧ last = { ride := next } := by
      refine ⟨[.ride action], { ride := next }, ?_, rfl⟩
      have hride : ride.step action = some next := hstep
      simp [transition.Machine.run, interleavedMachine, Interleaved.step, hallows, hride]
    cases action with
    | changeState call =>
      obtain ⟨hfree, ⟨haccepts, rfl⟩ | ⟨haccepts, rfl⟩⟩ := State.changeState_cases hstep
      · refine ⟨[.changeState call, .proceed, .proceed, .proceed], _, ?_, rfl⟩
        simp [transition.Machine.run, interleavedMachine, Interleaved.step, Interleaved.enter,
          Interleaved.proceed, hfree, RideStateManagerTest.tryChangingState_of_accepts haccepts]
      · refine ⟨[.changeState call, .proceed, .proceed], _, ?_, rfl⟩
        simp [transition.Machine.run, interleavedMachine, Interleaved.step, Interleaved.enter,
          Interleaved.proceed, hfree, RideStateManagerTest.tryChangingState_of_not_accepts haccepts]
        rw [← hfree]
    | observerStep =>
      by_cases hphase : ride.observerThread = .acquiring
      · obtain ⟨hfree, ⟨hlive, hqueue, rfl⟩ | ⟨hshutting, hqueue, rfl⟩ |
          ⟨notification, rest, hqueue, rfl⟩⟩ := State.acquiring_cases hphase hstep
        · refine ⟨[.wait, .proceed], _, ?_, rfl⟩
          simp [transition.Machine.run, interleavedMachine, Interleaved.step, Interleaved.enter,
            Interleaved.proceed, hphase, hfree, hlive, hqueue]
        · refine ⟨[.wait, .proceed, .proceed, .proceed], _, ?_, rfl⟩
          simp [transition.Machine.run, interleavedMachine, Interleaved.step, Interleaved.enter,
            Interleaved.proceed, hphase, hfree, hshutting, hqueue]
        · refine ⟨[.wait, .proceed, .proceed, .proceed], _, ?_, rfl⟩
          simp [transition.Machine.run, interleavedMachine, Interleaved.step, Interleaved.enter,
            Interleaved.proceed, hphase, hfree, hqueue]
      · exact hplain (by simpa [Interleaved.allows] using hphase)
    | destructorStep =>
      by_cases hphase : ride.destructor = .alive
      · have hcases := State.destructorStep_cases hstep
        simp only [hphase, true_and, reduceCtorEq, false_and, or_false] at hcases
        obtain ⟨hfree, rfl⟩ := hcases
        refine ⟨[.destroy, .proceed, .proceed], _, ?_, rfl⟩
        simp [transition.Machine.run, interleavedMachine, Interleaved.step, Interleaved.enter,
          Interleaved.proceed, hphase, hfree]
      · exact hplain (by simpa [Interleaved.allows] using hphase)
    | setStop | run | subscribe | unsubscribe | callerStep | spuriousWake | retainDispatcher
    | releaseDispatcher | retainObserver | releaseObserver => exact hplain rfl

end spdlogger.ride_state_manager
