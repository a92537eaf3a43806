import Spdlogger.RideStateManager.Loops

namespace spdlogger.ride_state_manager

variable {Dispatcher Observer Tid : Type} [DecidableEq Dispatcher] [DecidableEq Observer]
  [Fintype Tid] [DecidableEq Tid]

/-- What `subscribe` and `unsubscribe` leave alone at every one of their steps. -/
structure State.CallFrame (s next : State Dispatcher Observer Tid) : Prop where
  currentRideState : next.manager.currentRideState = s.manager.currentRideState
  notificationsQueue : next.manager.notificationsQueue = s.manager.notificationsQueue
  isShuttingDown : next.manager.isShuttingDown = s.manager.isShuttingDown
  stop : next.stop = s.stop
  observerThread : next.observerThread = s.observerThread
  destructor : next.destructor = s.destructor
  accepted : next.accepted = s.accepted
  popped : next.popped = s.popped
  snapshots : next.snapshots = s.snapshots
  dispatched : next.dispatched = s.dispatched

theorem State.callFrame_subscribeStep (s : State Dispatcher Observer Tid) (thread : Tid)
    (dispatcher : Dispatcher) (observer : Observer) (index : Nat)
    (scan : Scan Dispatcher Observer) :
    s.CallFrame (s.subscribeStep thread dispatcher observer index scan) := by
  have hmove := s.subscribeMove thread dispatcher observer index scan
  generalize s.subscribeStep thread dispatcher observer index scan = next at hmove
  cases hmove <;> constructor <;> rfl

omit [DecidableEq Dispatcher] in
theorem State.callFrame_unsubscribeStep (s : State Dispatcher Observer Tid) (thread : Tid)
    (observer : Observer) (index : Nat) (scan : Scan Dispatcher Observer) :
    s.CallFrame (s.unsubscribeStep thread observer index scan) := by
  have hmove := s.unsubscribeMove thread observer index scan
  generalize s.unsubscribeStep thread observer index scan = next at hmove
  cases hmove <;> constructor <;> rfl

theorem State.callFrame_callerStep {s next : State Dispatcher Observer Tid} {thread : Tid}
    (hstep : s.callerStep thread = some next) : s.CallFrame next := by
  unfold State.callerStep at hstep
  cases hphase : s.callers thread with
  | idle | returned => simp [hphase] at hstep
  | acquiringSubscribe | acquiringUnsubscribe =>
    simp only [hphase, Option.ite_none_right_eq_some] at hstep
    obtain ⟨_, hstep⟩ := hstep
    split at hstep <;> cases hstep <;> constructor <;> rfl
  | subscribing dispatcher observer index scan =>
    simp only [hphase, Option.some.injEq] at hstep
    rw [← hstep]
    exact s.callFrame_subscribeStep thread dispatcher observer index scan
  | unsubscribing observer index scan =>
    simp only [hphase, Option.some.injEq] at hstep
    rw [← hstep]
    exact s.callFrame_unsubscribeStep thread observer index scan

theorem State.callFrame_call {s next : State Dispatcher Observer Tid} {thread : Tid}
    {dispatcher : Option Dispatcher} {observer : Option Observer}
    {acquiring : CallerPhase Dispatcher Observer}
    (hstep : s.call thread dispatcher observer acquiring = some next) : s.CallFrame next := by
  simp only [State.call, Option.ite_none_right_eq_some, Option.some.injEq] at hstep
  obtain ⟨_, rfl⟩ := hstep
  constructor <;> rfl

/-- The steps that take part in the handling of notifications, and the rest. -/
inductive State.Move (s next : State Dispatcher Observer Tid) :
    Action Dispatcher Observer Tid → Prop where
  | setStop (hnext : next = { s with stop := true }) : Move s next .setStop
  | run (hphase : s.observerThread = .notStarted) (halive : s.destructor = .alive)
      (hnext : next = { s with observerThread := .testingStop }) : Move s next .run
  | changeState {call : StateChange} (hstep : s.changeState call = some next) :
      Move s next (.changeState call)
  | observerStep (hstep : s.observerStep = some next) : Move s next .observerStep
  | spuriousWake (hphase : s.observerThread = .blocked)
      (hnext : next = { s with observerThread := .acquiring }) : Move s next .spuriousWake
  | destructorStep (hstep : s.destructorStep = some next) : Move s next .destructorStep
  | other {action : Action Dispatcher Observer Tid} (hcall : ∀ call, action ≠ .changeState call)
      (hframe : s.CallFrame next) : Move s next action

/-- Every step is one of the moves. -/
theorem State.move_of_step {s next : State Dispatcher Observer Tid}
    {action : Action Dispatcher Observer Tid} (hstep : s.step action = some next) :
    s.Move next action := by
  cases action with
  | setStop =>
    simp only [State.step, Option.some.injEq] at hstep
    exact .setStop hstep.symm
  | run =>
    simp only [State.step, Option.ite_none_right_eq_some, Option.some.injEq] at hstep
    obtain ⟨⟨hphase, halive⟩, hnext⟩ := hstep
    exact .run hphase halive hnext.symm
  | changeState call => exact .changeState hstep
  | subscribe thread dispatcher observer =>
    cases dispatcher <;> cases observer <;> exact .other nofun (State.callFrame_call hstep)
  | unsubscribe thread observer =>
    cases observer <;> exact .other nofun (State.callFrame_call hstep)
  | callerStep thread => exact .other nofun (State.callFrame_callerStep hstep)
  | observerStep => exact .observerStep hstep
  | spuriousWake =>
    simp only [State.step, Option.ite_none_right_eq_some, Option.some.injEq] at hstep
    exact .spuriousWake hstep.1 hstep.2.symm
  | destructorStep => exact .destructorStep hstep
  | retainDispatcher | retainObserver =>
    simp only [State.step, Option.ite_none_right_eq_some, Option.some.injEq] at hstep
    obtain ⟨_, rfl⟩ := hstep
    exact .other nofun (by constructor <;> rfl)
  | releaseDispatcher | releaseObserver =>
    simp only [State.step, Option.some.injEq] at hstep
    subst hstep
    exact .other nofun (by constructor <;> rfl)

omit [DecidableEq Dispatcher] [DecidableEq Observer] [Fintype Tid] [DecidableEq Tid] in
/-- A state change is accepted with all its effects or has none. -/
theorem State.changeState_cases {s next : State Dispatcher Observer Tid} {call : StateChange}
    (hstep : s.changeState call = some next) : s.notificationsMutex = none ∧
      (s.manager.Accepts call.nextRideState ∧
        next = { s with
          manager := { s.manager with
            currentRideState := call.nextRideState
            notificationsQueue := s.manager.notificationsQueue ++
              [⟨s.manager.currentRideState, call.nextRideState⟩] }
          observerThread := s.observerThread.notified
          accepted := s.accepted ++ [⟨s.manager.currentRideState, call.nextRideState⟩] } ∨
        ¬ s.manager.Accepts call.nextRideState ∧ next = s) := by
  simp only [State.changeState, Option.ite_none_right_eq_some] at hstep
  obtain ⟨hfree, hstep⟩ := hstep
  refine ⟨hfree, ?_⟩
  by_cases haccepts : s.manager.Accepts call.nextRideState
  · rw [RideStateManagerTest.tryChangingState_of_accepts haccepts] at hstep
    exact .inl ⟨haccepts, (Option.some.inj hstep).symm⟩
  · rw [RideStateManagerTest.tryChangingState_of_not_accepts haccepts] at hstep
    exact .inr ⟨haccepts, (Option.some.inj hstep).symm⟩

omit [DecidableEq Tid] in
/-- The critical section around the wait: sleep, leave, or take the front. -/
theorem State.acquiring_cases {s next : State Dispatcher Observer Tid}
    (hphase : s.observerThread = .acquiring) (hstep : s.observerStep = some next) :
    s.notificationsMutex = none ∧
      (s.manager.isShuttingDown = false ∧ s.manager.notificationsQueue = [] ∧
          next = { s with observerThread := .blocked } ∨
        s.manager.isShuttingDown = true ∧ s.manager.notificationsQueue = [] ∧
          next = { s with observerThread := .exited } ∨
        ∃ notification rest, s.manager.notificationsQueue = notification :: rest ∧
          next = { s with
            manager := { s.manager with notificationsQueue := rest }
            observerThread := .popped notification
            popped := s.popped ++ [notification] }) := by
  simp only [State.observerStep, hphase, Option.ite_none_right_eq_some] at hstep
  obtain ⟨hfree, hstep⟩ := hstep
  refine ⟨hfree, ?_⟩
  cases hqueue : s.manager.notificationsQueue with
  | nil =>
    cases hshutting : s.manager.isShuttingDown with
    | false =>
      simp only [hqueue, hshutting] at hstep
      exact .inl ⟨rfl, rfl, (Option.some.inj hstep).symm⟩
    | true =>
      simp only [hqueue, hshutting] at hstep
      exact .inr (.inl ⟨rfl, rfl, (Option.some.inj hstep).symm⟩)
  | cons notification rest =>
    simp only [hqueue, List.isEmpty_cons, Bool.and_false] at hstep
    exact .inr (.inr ⟨notification, rest, rfl, (Option.some.inj hstep).symm⟩)

/-- Everything that a step of the observer thread can do. -/
inductive State.ObserverMove (s : State Dispatcher Observer Tid) :
    State Dispatcher Observer Tid → Prop where
  | stop (hphase : s.observerThread = .testingStop) (hstop : s.stop = true) :
      ObserverMove s { s with observerThread := .exited }
  | goOn (hphase : s.observerThread = .testingStop) (hstop : s.stop = false) :
      ObserverMove s { s with observerThread := .acquiring }
  | sleep (hphase : s.observerThread = .acquiring) (hfree : s.notificationsMutex = none)
      (hlive : s.manager.isShuttingDown = false) (hqueue : s.manager.notificationsQueue = []) :
      ObserverMove s { s with observerThread := .blocked }
  | leave (hphase : s.observerThread = .acquiring) (hfree : s.notificationsMutex = none)
      (hshutting : s.manager.isShuttingDown = true) (hqueue : s.manager.notificationsQueue = []) :
      ObserverMove s { s with observerThread := .exited }
  | pop (notification : NotificationData) (rest : List NotificationData)
      (hphase : s.observerThread = .acquiring) (hfree : s.notificationsMutex = none)
      (hqueue : s.manager.notificationsQueue = notification :: rest) :
      ObserverMove s { s with
        manager := { s.manager with notificationsQueue := rest }
        observerThread := .popped notification
        popped := s.popped ++ [notification] }
  | lock (notification : NotificationData) (hphase : s.observerThread = .popped notification)
      (hfree : s.observersMutex = none) :
      ObserverMove s { s with
        observersMutex := some .observerThread
        observerThread := .scanning notification [] 0 .lockingDispatcher }
  | scan (notification : NotificationData) (healthyObservers : List (Dispatcher × Observer))
      (index : Nat) (scan : Scan Dispatcher Observer)
      (hphase : s.observerThread = .scanning notification healthyObservers index scan) :
      ObserverMove s (s.snapshotStep notification healthyObservers index scan)
  | dispatch (notification : NotificationData) (healthyObservers : List (Dispatcher × Observer))
      (index : Nat) (pair : Dispatcher × Observer)
      (hphase : s.observerThread = .dispatching notification healthyObservers index)
      (hpair : healthyObservers[index]? = some pair) :
      ObserverMove s { s with
        observerThread := .inDispatch notification healthyObservers index
        dispatched := s.dispatched ++ [(notification, pair)] }
  | finish (notification : NotificationData) (healthyObservers : List (Dispatcher × Observer))
      (index : Nat) (hphase : s.observerThread = .dispatching notification healthyObservers index)
      (hend : healthyObservers[index]? = none) :
      ObserverMove s { s with observerThread := .testingStop }
  | resume (notification : NotificationData) (healthyObservers : List (Dispatcher × Observer))
      (index : Nat) (hphase : s.observerThread = .inDispatch notification healthyObservers index) :
      ObserverMove s { s with
        observerThread := .dispatching notification healthyObservers (index + 1) }

omit [DecidableEq Tid] in
theorem State.observerMove_of_step {s next : State Dispatcher Observer Tid}
    (hstep : s.observerStep = some next) : s.ObserverMove next := by
  cases hphase : s.observerThread with
  | notStarted | blocked | exited => simp [State.observerStep, hphase] at hstep
  | testingStop =>
    simp only [State.observerStep, hphase, Option.some.injEq] at hstep
    subst hstep
    by_cases hstop : s.stop = true
    · rw [if_pos hstop]
      exact .stop hphase hstop
    · rw [if_neg hstop]
      exact .goOn hphase (Bool.not_eq_true _ ▸ hstop)
  | acquiring =>
    obtain ⟨hfree, ⟨hlive, hqueue, rfl⟩ | ⟨hshutting, hqueue, rfl⟩ |
      ⟨notification, rest, hqueue, rfl⟩⟩ := State.acquiring_cases hphase hstep
    · exact .sleep hphase hfree hlive hqueue
    · exact .leave hphase hfree hshutting hqueue
    · exact .pop notification rest hphase hfree hqueue
  | popped notification =>
    simp only [State.observerStep, hphase, Option.ite_none_right_eq_some,
      Option.some.injEq] at hstep
    obtain ⟨hfree, rfl⟩ := hstep
    exact .lock notification hphase hfree
  | scanning notification healthyObservers index scan =>
    simp only [State.observerStep, hphase, Option.some.injEq] at hstep
    exact hstep ▸ .scan notification healthyObservers index scan hphase
  | dispatching notification healthyObservers index =>
    simp only [State.observerStep, hphase] at hstep
    cases hpair : healthyObservers[index]? with
    | none =>
      simp only [hpair, Option.some.injEq] at hstep
      exact hstep ▸ .finish notification healthyObservers index hphase hpair
    | some pair =>
      simp only [hpair, Option.some.injEq] at hstep
      exact hstep ▸ .dispatch notification healthyObservers index pair hphase hpair
  | inDispatch notification healthyObservers index =>
    simp only [State.observerStep, hphase, Option.some.injEq] at hstep
    exact hstep ▸ .resume notification healthyObservers index hphase

omit [Fintype Tid] [DecidableEq Tid] in
/-- The destructor sets the flag under the mutex, notifies, and joins the thread. -/
theorem State.destructorStep_cases {s next : State Dispatcher Observer Tid}
    (hstep : s.destructorStep = some next) :
    s.destructor = .alive ∧ s.notificationsMutex = none ∧
        next = { s with
          manager := { s.manager with isShuttingDown := true }
          destructor := .notifying } ∨
      s.destructor = .notifying ∧
        next = { s with
          observerThread := s.observerThread.notified
          destructor := .testingJoinable } ∨
      s.destructor = .testingJoinable ∧
        next = { s with
          destructor := if s.observerThread = .notStarted then .destroyed else .joining } ∨
      s.destructor = .joining ∧ s.observerThread = .exited ∧
        next = { s with destructor := .destroyed } := by
  unfold State.destructorStep at hstep
  cases hphase : s.destructor with
  | alive =>
    simp only [hphase, Option.ite_none_right_eq_some, Option.some.injEq] at hstep
    exact .inl ⟨rfl, hstep.1, hstep.2.symm⟩
  | notifying =>
    simp only [hphase, Option.some.injEq] at hstep
    exact .inr (.inl ⟨rfl, hstep.symm⟩)
  | testingJoinable =>
    simp only [hphase, Option.some.injEq] at hstep
    exact .inr (.inr (.inl ⟨rfl, hstep.symm⟩))
  | joining =>
    simp only [hphase, Option.ite_none_right_eq_some, Option.some.injEq] at hstep
    exact .inr (.inr (.inr ⟨rfl, hstep.1, hstep.2.symm⟩))
  | destroyed => simp [hphase] at hstep

end spdlogger.ride_state_manager
