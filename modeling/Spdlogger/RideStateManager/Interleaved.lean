import Spdlogger.RideStateManager.History

namespace spdlogger.ride_state_manager

/-- Where the thread inside `notificationsMutex_` stands. A state change is about to test,
to call `notify_one` behind its push, or to return; the observer thread is about to test
the predicate of its wait, is behind the wait, or has only to give up the mutex; and the
destructor is about to set the flag or has set it. -/
inductive InsidePhase (Dispatcher Observer : Type) where
  | testingChange (call : StateChange)
  | notifying
  | returning
  | testingPredicate
  | checking
  | unlocking (phase : ObserverPhase Dispatcher Observer)
  | settingFlag
  | flagSet

/-- `ride` has the threads that are not inside, and the data. -/
structure Interleaved (Dispatcher Observer Tid : Type) where
  ride : State Dispatcher Observer Tid := {}
  inside : Option (InsidePhase Dispatcher Observer) := none

/-- `changeState`, of any thread at all, `wait` and `destroy` take the mutex, `proceed` is
a step of the thread inside, and `ride` one of another thread, or one of no section. -/
inductive InterleavedAction (Dispatcher Observer Tid : Type) where
  | changeState (call : StateChange)
  | wait
  | destroy
  | proceed
  | ride (action : Action Dispatcher Observer Tid)

variable {Dispatcher Observer Tid : Type}

/-- Neither a call of `subscribe` or `unsubscribe` nor a section has the mutex. -/
def Interleaved.NotificationsMutexFree (s : Interleaved Dispatcher Observer Tid) : Prop :=
  s.ride.notificationsMutex = none ∧ s.inside = none

/-- A section begins when nobody is inside one. -/
def Interleaved.enter (s : Interleaved Dispatcher Observer Tid)
    (phase : InsidePhase Dispatcher Observer) : Option (Interleaved Dispatcher Observer Tid) :=
  if s.ride.notificationsMutex = none ∧ s.inside.isNone then some { s with inside := some phase }
  else none

/-- A step inside the mutex. To block gives it up at once. -/
def Interleaved.proceed (s : Interleaved Dispatcher Observer Tid) :
    Option (Interleaved Dispatcher Observer Tid) :=
  match s.inside with
  | none => none
  | some (.testingChange call) =>
    let (accepted, manager) := s.ride.manager.tryChangingState call.nextRideState
    if accepted then
      some {
        ride := { s.ride with
          manager
          accepted := s.ride.accepted ++ [⟨s.ride.manager.currentRideState, call.nextRideState⟩] }
        inside := some .notifying }
    else some { ride := { s.ride with manager }, inside := some .returning }
  | some .notifying => some {
      ride := { s.ride with observerThread := s.ride.observerThread.notified }
      inside := some .returning }
  | some .returning => some { s with inside := none }
  | some .testingPredicate =>
    if s.ride.manager.isShuttingDown || !s.ride.manager.notificationsQueue.isEmpty then
      some { s with inside := some .checking }
    else some { ride := { s.ride with observerThread := .blocked }, inside := none }
  | some .checking =>
    if s.ride.manager.isShuttingDown && s.ride.manager.notificationsQueue.isEmpty then
      some { s with inside := some (.unlocking .exited) }
    else
      match s.ride.manager.notificationsQueue with
      | [] => some { s with inside := some (.unlocking .testingStop) }
      | notification :: rest => some {
          ride := { s.ride with
            manager := { s.ride.manager with notificationsQueue := rest }
            popped := s.ride.popped ++ [notification] }
          inside := some (.unlocking (.popped notification)) }
  | some (.unlocking phase) =>
    some { ride := { s.ride with observerThread := phase }, inside := none }
  | some .settingFlag => some {
      ride := { s.ride with manager := { s.ride.manager with isShuttingDown := true } }
      inside := some .flagSet }
  | some .flagSet => some { ride := { s.ride with destructor := .notifying }, inside := none }

variable [DecidableEq Dispatcher] [DecidableEq Observer] [Fintype Tid] [DecidableEq Tid]

/-- The steps that are not taken apart. Every step of a call of `subscribe` or
`unsubscribe` takes the mutex or holds it; `run` is not called on a manager that is
going away. -/
def Interleaved.allows (s : Interleaved Dispatcher Observer Tid) :
    Action Dispatcher Observer Tid → Bool
  | .changeState _ => false
  | .observerStep => s.ride.observerThread ≠ .acquiring
  | .destructorStep => s.ride.destructor ≠ .alive
  | .callerStep _ => s.inside.isNone
  | .run => !(s.inside matches some .settingFlag | some .flagSet)
  | _ => true

/-- A step inside a section, the begin of one, or a step of the manager outside of them. -/
def Interleaved.step (s : Interleaved Dispatcher Observer Tid) :
    InterleavedAction Dispatcher Observer Tid → Option (Interleaved Dispatcher Observer Tid)
  | .changeState call => s.enter (.testingChange call)
  | .wait => if s.ride.observerThread = .acquiring then s.enter .testingPredicate else none
  | .destroy => if s.ride.destructor = .alive then s.enter .settingFlag else none
  | .proceed => s.proceed
  | .ride action =>
    if s.allows action then (s.ride.step action).map fun ride => { s with ride } else none

/-- The manager with these sections step by step, from its construction on. -/
def interleavedMachine (Dispatcher Observer Tid : Type) [DecidableEq Dispatcher]
    [DecidableEq Observer] [Fintype Tid] [DecidableEq Tid] :
    transition.Machine (Interleaved Dispatcher Observer Tid)
      (InterleavedAction Dispatcher Observer Tid) where
  init s := (rideMachine Dispatcher Observer Tid).init s.ride ∧ s.inside = none
  step := Interleaved.step

/-- The begins of calls, the outside owners and the stop flag. -/
def Action.quiet : Action Dispatcher Observer Tid → Bool
  | .setStop | .subscribe .. | .unsubscribe .. | .retainDispatcher _ | .releaseDispatcher _
    | .retainObserver _ | .releaseObserver _ => true
  | _ => false

/-- What the quiet steps change. -/
theorem State.quiet_of_step {s next : State Dispatcher Observer Tid}
    {action : Action Dispatcher Observer Tid} (hquiet : action.quiet)
    (hstep : s.step action = some next) : ∃ stop callers dispatcherOwned observerOwned,
      next = { s with stop, callers, dispatcherOwned, observerOwned } := by
  cases action with
  | setStop | releaseDispatcher | releaseObserver =>
    simp only [State.step, Option.some.injEq] at hstep
    exact ⟨_, _, _, _, hstep.symm⟩
  | subscribe thread dispatcher observer =>
    cases dispatcher <;> cases observer <;>
      simp only [State.step, State.call, Option.ite_none_right_eq_some, Option.some.injEq] at hstep <;>
      exact ⟨_, _, _, _, hstep.2.symm⟩
  | unsubscribe thread observer =>
    cases observer <;>
      simp only [State.step, State.call, Option.ite_none_right_eq_some, Option.some.injEq] at hstep <;>
      exact ⟨_, _, _, _, hstep.2.symm⟩
  | retainDispatcher | retainObserver =>
    simp only [State.step, Option.ite_none_right_eq_some, Option.some.injEq] at hstep
    exact ⟨_, _, _, _, hstep.2.symm⟩
  | run | changeState | callerStep | observerStep | spuriousWake | destructorStep => cases hquiet

/-- What a thread inside the mutex relies on while others take steps. -/
structure State.Beside (s next : State Dispatcher Observer Tid) : Prop where
  notificationsMutex : next.notificationsMutex = s.notificationsMutex
  notificationsQueue : next.manager.notificationsQueue = s.manager.notificationsQueue
  isShuttingDown : next.manager.isShuttingDown = s.manager.isShuttingDown
  acquiring : s.observerThread = .acquiring → next.observerThread = .acquiring
  alive : s.destructor = .alive → next.destructor = .alive

omit [DecidableEq Tid] in
/-- The observer thread leaves `notificationsMutex_` to its callers. -/
theorem State.notificationsMutex_observerStep {s next : State Dispatcher Observer Tid}
    (hstep : s.observerStep = some next) : next.notificationsMutex = s.notificationsMutex := by
  cases State.observerMove_of_step hstep with
  | scan notification healthyObservers index scan =>
    have hmove := s.snapshotMove notification healthyObservers index scan
    generalize s.snapshotStep notification healthyObservers index scan = next at hmove
    cases hmove <;> rfl
  | stop | goOn | sleep | leave | pop | lock | dispatch | finish | resume => rfl

/-- What the others do beside a section is quiet. -/
theorem Interleaved.beside_of_ride {s : Interleaved Dispatcher Observer Tid}
    {phase : InsidePhase Dispatcher Observer} {ride : State Dispatcher Observer Tid}
    {action : Action Dispatcher Observer Tid} (hinside : s.inside = some phase)
    (hallows : s.allows action) (hstep : s.ride.step action = some ride) :
    s.ride.Beside ride := by
  cases action with
  | changeState => cases hallows
  | callerStep => simp [Interleaved.allows, hinside] at hallows
  | observerStep =>
    have hphase : s.ride.observerThread ≠ .acquiring := by simpa [Interleaved.allows] using hallows
    have hframe := State.queueFrame_observerStep hphase hstep
    exact ⟨State.notificationsMutex_observerStep hstep, hframe.notificationsQueue,
      hframe.isShuttingDown, fun hacquiring => absurd hacquiring hphase, hframe.destructor.trans⟩
  | destructorStep =>
    have hphase : s.ride.destructor ≠ .alive := by simpa [Interleaved.allows] using hallows
    obtain ⟨halive, _⟩ | ⟨_, rfl⟩ | ⟨_, rfl⟩ | ⟨_, _, rfl⟩ := State.destructorStep_cases hstep
    · exact absurd halive hphase
    · exact ⟨rfl, rfl, rfl, fun hacquiring => by simp [hacquiring, ObserverPhase.notified],
        fun halive => absurd halive hphase⟩
    · exact ⟨rfl, rfl, rfl, id, fun halive => absurd halive hphase⟩
    · exact ⟨rfl, rfl, rfl, id, fun halive => absurd halive hphase⟩
  | run | spuriousWake =>
    simp only [State.step, Option.ite_none_right_eq_some, Option.some.injEq] at hstep
    obtain ⟨hbefore, rfl⟩ := hstep
    exact ⟨rfl, rfl, rfl, fun hacquiring => by simp [hacquiring] at hbefore, id⟩
  | setStop | subscribe | unsubscribe | retainDispatcher | releaseDispatcher | retainObserver
  | releaseObserver =>
    obtain ⟨stop, callers, dispatcherOwned, observerOwned, rfl⟩ := State.quiet_of_step rfl hstep
    exact ⟨rfl, rfl, rfl, id, id⟩

/-- The phases that the observer thread leaves the mutex for. -/
inductive ObserverPhase.Left {Dispatcher Observer : Type} :
    ObserverPhase Dispatcher Observer → Prop where
  | testingStop : Left .testingStop
  | popped (notification : NotificationData) : Left (.popped notification)
  | exited : Left .exited

/-- What holds of the thread that is inside. -/
def InsidePhase.Fits (s : State Dispatcher Observer Tid) : InsidePhase Dispatcher Observer → Prop
  | .testingChange _ | .returning => True
  | .notifying => s.manager.isShuttingDown = false
  | .testingPredicate => s.observerThread = .acquiring
  | .checking => s.observerThread = .acquiring ∧
      (s.manager.notificationsQueue = [] → s.manager.isShuttingDown = true)
  | .unlocking phase => s.observerThread = .acquiring ∧ phase.Left
  | .settingFlag | .flagSet => s.destructor = .alive

omit [DecidableEq Dispatcher] [DecidableEq Observer] [Fintype Tid] [DecidableEq Tid] in
/-- What holds of the thread inside, the others do not change. -/
theorem InsidePhase.Fits.beside {s next : State Dispatcher Observer Tid}
    {phase : InsidePhase Dispatcher Observer} (h : phase.Fits s) (hbeside : s.Beside next) :
    phase.Fits next := by
  cases phase with
  | testingChange | returning => trivial
  | notifying => exact hbeside.isShuttingDown.trans h
  | testingPredicate => exact hbeside.acquiring h
  | checking =>
    refine ⟨hbeside.acquiring h.1, ?_⟩
    rw [hbeside.isShuttingDown, hbeside.notificationsQueue]
    exact h.2
  | unlocking phase => exact ⟨hbeside.acquiring h.1, h.2⟩
  | settingFlag | flagSet => exact hbeside.alive h

/-- Whoever is inside has the mutex. -/
def Interleaved.Sound (s : Interleaved Dispatcher Observer Tid) : Prop :=
  ∀ phase, s.inside = some phase → s.ride.notificationsMutex = none ∧ phase.Fits s.ride

/-- Everything that a step inside the mutex can do. -/
inductive Interleaved.ProceedMove (s : Interleaved Dispatcher Observer Tid) :
    Interleaved Dispatcher Observer Tid → Prop where
  | push (call : StateChange) (hinside : s.inside = some (.testingChange call))
      (haccepts : s.ride.manager.Accepts call.nextRideState) :
      ProceedMove s {
        ride := { s.ride with
          manager := { s.ride.manager with
            currentRideState := call.nextRideState
            notificationsQueue := s.ride.manager.notificationsQueue ++
              [⟨s.ride.manager.currentRideState, call.nextRideState⟩] }
          accepted := s.ride.accepted ++ [⟨s.ride.manager.currentRideState, call.nextRideState⟩] }
        inside := some .notifying }
  | refuse (call : StateChange) (hinside : s.inside = some (.testingChange call))
      (hrefuses : ¬ s.ride.manager.Accepts call.nextRideState) :
      ProceedMove s { s with inside := some .returning }
  | notify (hinside : s.inside = some .notifying) :
      ProceedMove s {
        ride := { s.ride with observerThread := s.ride.observerThread.notified }
        inside := some .returning }
  | finish (hinside : s.inside = some .returning) : ProceedMove s { s with inside := none }
  | find (hinside : s.inside = some .testingPredicate)
      (hready : s.ride.manager.notificationsQueue = [] → s.ride.manager.isShuttingDown = true) :
      ProceedMove s { s with inside := some .checking }
  | sleep (hinside : s.inside = some .testingPredicate)
      (hlive : s.ride.manager.isShuttingDown = false)
      (hqueue : s.ride.manager.notificationsQueue = []) :
      ProceedMove s { ride := { s.ride with observerThread := .blocked }, inside := none }
  | leave (hinside : s.inside = some .checking) (hshutting : s.ride.manager.isShuttingDown = true)
      (hqueue : s.ride.manager.notificationsQueue = []) :
      ProceedMove s { s with inside := some (.unlocking .exited) }
  | retry (hinside : s.inside = some .checking) (hlive : s.ride.manager.isShuttingDown = false)
      (hqueue : s.ride.manager.notificationsQueue = []) :
      ProceedMove s { s with inside := some (.unlocking .testingStop) }
  | pop (notification : NotificationData) (rest : List NotificationData)
      (hinside : s.inside = some .checking)
      (hqueue : s.ride.manager.notificationsQueue = notification :: rest) :
      ProceedMove s {
        ride := { s.ride with
          manager := { s.ride.manager with notificationsQueue := rest }
          popped := s.ride.popped ++ [notification] }
        inside := some (.unlocking (.popped notification)) }
  | unlock (phase : ObserverPhase Dispatcher Observer)
      (hinside : s.inside = some (.unlocking phase)) :
      ProceedMove s { ride := { s.ride with observerThread := phase }, inside := none }
  | setFlag (hinside : s.inside = some .settingFlag) :
      ProceedMove s {
        ride := { s.ride with manager := { s.ride.manager with isShuttingDown := true } }
        inside := some .flagSet }
  | destroy (hinside : s.inside = some .flagSet) :
      ProceedMove s { ride := { s.ride with destructor := .notifying }, inside := none }

omit [DecidableEq Dispatcher] [DecidableEq Observer] [Fintype Tid] [DecidableEq Tid] in
theorem Interleaved.move_of_proceed {s next : Interleaved Dispatcher Observer Tid}
    (hstep : s.proceed = some next) : s.ProceedMove next := by
  unfold Interleaved.proceed at hstep
  cases hinside : s.inside with
  | none => simp [hinside] at hstep
  | some phase =>
    cases phase with
    | testingChange call =>
      by_cases haccepts : s.ride.manager.Accepts call.nextRideState
      · simp only [hinside, RideStateManagerTest.tryChangingState_of_accepts haccepts, if_true,
          Option.some.injEq] at hstep
        exact hstep ▸ .push call hinside haccepts
      · simp only [hinside, RideStateManagerTest.tryChangingState_of_not_accepts haccepts,
          Bool.false_eq_true, if_false, Option.some.injEq] at hstep
        exact hstep ▸ .refuse call hinside haccepts
    | notifying =>
      simp only [hinside, Option.some.injEq] at hstep
      exact hstep ▸ .notify hinside
    | returning =>
      simp only [hinside, Option.some.injEq] at hstep
      exact hstep ▸ .finish hinside
    | testingPredicate =>
      simp only [hinside] at hstep
      split_ifs at hstep with hready
      · cases hstep
        exact .find hinside fun hqueue => by simpa [hqueue] using hready
      · cases hstep
        simp only [Bool.or_eq_true, not_or, Bool.not_eq_true, Bool.not_eq_false',
          List.isEmpty_iff] at hready
        exact .sleep hinside hready.1 hready.2
    | checking =>
      simp only [hinside] at hstep
      cases hqueue : s.ride.manager.notificationsQueue with
      | nil =>
        cases hshutting : s.ride.manager.isShuttingDown with
        | true =>
          simp only [hqueue, hshutting, List.isEmpty_nil, Bool.and_self, if_true,
            Option.some.injEq] at hstep
          exact hstep ▸ .leave hinside hshutting hqueue
        | false =>
          simp only [hqueue, hshutting, Bool.false_and, Bool.false_eq_true, if_false,
            Option.some.injEq] at hstep
          exact hstep ▸ .retry hinside hshutting hqueue
      | cons notification rest =>
        simp only [hqueue, List.isEmpty_cons, Bool.and_false, Bool.false_eq_true, if_false,
          Option.some.injEq] at hstep
        exact hstep ▸ .pop notification rest hinside hqueue
    | unlocking phase =>
      simp only [hinside, Option.some.injEq] at hstep
      exact hstep ▸ .unlock phase hinside
    | settingFlag =>
      simp only [hinside, Option.some.injEq] at hstep
      exact hstep ▸ .setFlag hinside
    | flagSet =>
      simp only [hinside, Option.some.injEq] at hstep
      exact hstep ▸ .destroy hinside

omit [DecidableEq Dispatcher] [DecidableEq Observer] [Fintype Tid] [DecidableEq Tid] in
/-- A step inside the mutex keeps the invariant. -/
theorem Interleaved.Sound.proceed {s next : Interleaved Dispatcher Observer Tid} (h : s.Sound)
    (hstep : s.proceed = some next) : next.Sound := by
  cases Interleaved.move_of_proceed hstep with
  | push call hinside haccepts =>
    rintro other ⟨⟩
    exact ⟨(h _ hinside).1, haccepts.live⟩
  | refuse _ hinside | notify hinside =>
    rintro other ⟨⟩
    exact ⟨(h _ hinside).1, trivial⟩
  | find hinside hready =>
    rintro other ⟨⟩
    exact ⟨(h _ hinside).1, (h _ hinside).2, hready⟩
  | leave hinside =>
    rintro other ⟨⟩
    exact ⟨(h _ hinside).1, (h _ hinside).2.1, .exited⟩
  | retry hinside =>
    rintro other ⟨⟩
    exact ⟨(h _ hinside).1, (h _ hinside).2.1, .testingStop⟩
  | pop notification rest hinside =>
    rintro other ⟨⟩
    exact ⟨(h _ hinside).1, (h _ hinside).2.1, .popped notification⟩
  | setFlag hinside =>
    rintro other ⟨⟩
    exact ⟨(h _ hinside).1, (h _ hinside).2⟩
  | finish | sleep | unlock | destroy => rintro other ⟨⟩

/-- Each step keeps the invariant. -/
theorem Interleaved.Sound.step {s next : Interleaved Dispatcher Observer Tid} (h : s.Sound)
    {action : InterleavedAction Dispatcher Observer Tid} (hstep : s.step action = some next) :
    next.Sound := by
  have henter (phase : InsidePhase Dispatcher Observer) (hfits : phase.Fits s.ride)
      (hentered : s.enter phase = some next) : next.Sound := by
    simp only [Interleaved.enter, Option.ite_none_right_eq_some, Option.some.injEq] at hentered
    obtain ⟨⟨hfree, _⟩, rfl⟩ := hentered
    rintro other ⟨⟩
    exact ⟨hfree, hfits⟩
  cases action with
  | changeState call => exact henter (.testingChange call) trivial hstep
  | wait =>
    simp only [Interleaved.step, Option.ite_none_right_eq_some] at hstep
    exact henter .testingPredicate hstep.1 hstep.2
  | destroy =>
    simp only [Interleaved.step, Option.ite_none_right_eq_some] at hstep
    exact henter .settingFlag hstep.1 hstep.2
  | proceed => exact h.proceed hstep
  | ride action =>
    simp only [Interleaved.step, Option.ite_none_right_eq_some, Option.map_eq_some_iff] at hstep
    obtain ⟨hallows, ride, hride, rfl⟩ := hstep
    intro phase (hinside : s.inside = some phase)
    obtain ⟨hmutex, hfits⟩ := h phase hinside
    have hbeside := Interleaved.beside_of_ride hinside hallows hride
    exact ⟨hbeside.notificationsMutex.trans hmutex, hfits.beside hbeside⟩

/-- Whoever is inside has the mutex, in every reachable state. -/
theorem Interleaved.sound {s : Interleaved Dispatcher Observer Tid}
    (hreach : (interleavedMachine Dispatcher Observer Tid).Reachable s) : s.Sound := by
  refine transition.Machine.Reachable.invariant (I := Interleaved.Sound) ?_ ?_ hreach
  · rintro s ⟨_, hinside⟩ phase hphase
    rw [hinside] at hphase
    cases hphase
  · exact fun s action next h hstep => h.step hstep

end spdlogger.ride_state_manager
