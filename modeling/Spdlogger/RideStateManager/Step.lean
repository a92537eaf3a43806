import Spdlogger.Library.Machine
import Spdlogger.RideStateManager.Phases

namespace spdlogger.ride_state_manager

/-- `retain` and `release` are of references outside the manager, whoever has them. -/
inductive Action (Dispatcher Observer Tid : Type) where
  | setStop
  | run
  | changeState (call : StateChange)
  | subscribe (thread : Tid) (dispatcher : Option Dispatcher) (observer : Option Observer)
  | unsubscribe (thread : Tid) (observer : Option Observer)
  | callerStep (thread : Tid)
  | observerStep
  | spuriousWake
  | destructorStep
  | retainDispatcher (dispatcher : Dispatcher)
  | releaseDispatcher (dispatcher : Dispatcher)
  | retainObserver (observer : Observer)
  | releaseObserver (observer : Observer)

variable {Dispatcher Observer Tid : Type} [DecidableEq Dispatcher] [DecidableEq Observer]
  [Fintype Tid] [DecidableEq Tid]

/-- `iter = observers_.erase(iter)`. -/
def State.eraseEntry (s : State Dispatcher Observer Tid) (index : Nat) :
    State Dispatcher Observer Tid :=
  { s with manager := { s.manager with observers := s.manager.observers.eraseIdx index } }

/-- `observers_.push_back({ dispatcher, observer })`. -/
def State.appendEntry (s : State Dispatcher Observer Tid) (dispatcher : Dispatcher)
    (observer : Observer) : State Dispatcher Observer Tid :=
  { s with manager := { s.manager with
      observers := s.manager.observers ++ [⟨dispatcher, observer⟩] } }

/-- The state with one call moved. -/
def State.setCaller (s : State Dispatcher Observer Tid) (thread : Tid)
    (phase : CallerPhase Dispatcher Observer) : State Dispatcher Observer Tid :=
  { s with callers := Function.update s.callers thread phase }

/-- A call that gives up both mutexes as it returns. -/
def State.finishCall (s : State Dispatcher Observer Tid) (thread : Tid) (result : Bool) :
    State Dispatcher Observer Tid :=
  { s.setCaller thread (.returned result) with observersMutex := none, notificationsMutex := none }

/-- A step of the loop in `subscribe`. -/
def State.subscribeStep (s : State Dispatcher Observer Tid) (thread : Tid) (dispatcher : Dispatcher)
    (observer : Observer) (index : Nat) :
    Scan Dispatcher Observer → State Dispatcher Observer Tid
  | .lockingDispatcher =>
    if index < s.manager.observers.length then
      let scan := .lockingObserver (s.lockDispatcher index)
      s.setCaller thread (.subscribing dispatcher observer index scan)
    else (s.appendEntry dispatcher observer).finishCall thread true
  | .lockingObserver currentDispatcher =>
    let scan := .deciding currentDispatcher (s.lockObserver index)
    s.setCaller thread (.subscribing dispatcher observer index scan)
  | .deciding (some currentDispatcher) (some currentObserver) =>
    let found : Bool := currentDispatcher = dispatcher && currentObserver = observer
    let scan := .releasingObserver (some currentDispatcher) (some currentObserver) found
    let index := if found then index else index + 1
    s.setCaller thread (.subscribing dispatcher observer index scan)
  | .deciding currentDispatcher currentObserver =>
    let scan := .releasingObserver currentDispatcher currentObserver false
    (s.eraseEntry index).setCaller thread (.subscribing dispatcher observer index scan)
  | .releasingObserver currentDispatcher _ found =>
    let scan := .releasingDispatcher currentDispatcher found
    s.setCaller thread (.subscribing dispatcher observer index scan)
  | .releasingDispatcher _ true => s.finishCall thread false
  | .releasingDispatcher _ false =>
    s.setCaller thread (.subscribing dispatcher observer index .lockingDispatcher)

/-- A step of the loop in `unsubscribe`, which locks observers only. -/
def State.unsubscribeStep (s : State Dispatcher Observer Tid) (thread : Tid) (observer : Observer)
    (index : Nat) : Scan Dispatcher Observer → State Dispatcher Observer Tid
  | .lockingDispatcher | .lockingObserver _ =>
    if index < s.manager.observers.length then
      let scan := .deciding none (s.lockObserver index)
      s.setCaller thread (.unsubscribing observer index scan)
    else s.finishCall thread true
  | .deciding _ (some currentObserver) =>
    let scan := .releasingObserver none (some currentObserver) false
    if currentObserver = observer then
      (s.eraseEntry index).setCaller thread (.unsubscribing observer index scan)
    else s.setCaller thread (.unsubscribing observer (index + 1) scan)
  | .deciding _ none =>
    let scan := .releasingObserver none none false
    (s.eraseEntry index).setCaller thread (.unsubscribing observer index scan)
  | .releasingObserver _ _ _ | .releasingDispatcher _ _ =>
    s.setCaller thread (.unsubscribing observer index (.lockingObserver none))

/-- A step of a call of `subscribe` or `unsubscribe`, which takes both mutexes and holds them to
its end. -/
def State.callerStep (s : State Dispatcher Observer Tid) (thread : Tid) :
    Option (State Dispatcher Observer Tid) :=
  match s.callers thread with
  | .idle | .returned _ => none
  | .acquiringSubscribe dispatcher observer =>
    if s.observersMutex = none ∧ s.notificationsMutex = none then
      if s.manager.isShuttingDown then some (s.setCaller thread (.returned false))
      else some { s.setCaller thread (.subscribing dispatcher observer 0 .lockingDispatcher) with
        observersMutex := some (.caller thread)
        notificationsMutex := some thread }
    else none
  | .subscribing dispatcher observer index scan =>
    some (s.subscribeStep thread dispatcher observer index scan)
  | .acquiringUnsubscribe observer =>
    if s.observersMutex = none ∧ s.notificationsMutex = none then
      if s.manager.isShuttingDown then some (s.setCaller thread (.returned false))
      else some { s.setCaller thread (.unsubscribing observer 0 (.lockingObserver none)) with
        observersMutex := some (.caller thread)
        notificationsMutex := some thread }
    else none
  | .unsubscribing observer index scan => some (s.unsubscribeStep thread observer index scan)

/-- A step of the observer thread's loop over `observers_`. -/
def State.snapshotStep (s : State Dispatcher Observer Tid) (notification : NotificationData)
    (healthyObservers : List (Dispatcher × Observer)) (index : Nat) :
    Scan Dispatcher Observer → State Dispatcher Observer Tid
  | .lockingDispatcher =>
    if index < s.manager.observers.length then
      let scan := .lockingObserver (s.lockDispatcher index)
      { s with observerThread := .scanning notification healthyObservers index scan }
    else
      { s with
        observersMutex := none
        observerThread := .dispatching notification healthyObservers 0
        snapshots := s.snapshots ++ [(notification, healthyObservers)] }
  | .lockingObserver dispatcher =>
    let scan := .deciding dispatcher (s.lockObserver index)
    { s with observerThread := .scanning notification healthyObservers index scan }
  | .deciding (some dispatcher) (some observer) =>
    let scan := .releasingObserver (some dispatcher) (some observer) false
    { s with observerThread :=
        .scanning notification (healthyObservers ++ [(dispatcher, observer)]) (index + 1) scan }
  | .deciding dispatcher observer =>
    let scan := .releasingObserver dispatcher observer false
    { s.eraseEntry index with
      observerThread := .scanning notification healthyObservers index scan }
  | .releasingObserver dispatcher _ _ =>
    let scan := .releasingDispatcher dispatcher false
    { s with observerThread := .scanning notification healthyObservers index scan }
  | .releasingDispatcher _ _ =>
    { s with observerThread := .scanning notification healthyObservers index .lockingDispatcher }

/-- A step of the observer thread. A `dispatch` that throws is caught, and the
loop goes on as if it had returned. -/
def State.observerStep (s : State Dispatcher Observer Tid) :
    Option (State Dispatcher Observer Tid) :=
  match s.observerThread with
  | .notStarted | .blocked | .exited => none
  | .testingStop => some { s with observerThread := if s.stop then .exited else .acquiring }
  | .acquiring =>
    if s.notificationsMutex = none then
      if !s.manager.isShuttingDown && s.manager.notificationsQueue.isEmpty then
        some { s with observerThread := .blocked }
      else if s.manager.isShuttingDown && s.manager.notificationsQueue.isEmpty then
        some { s with observerThread := .exited }
      else
        match s.manager.notificationsQueue with
        | [] => some { s with observerThread := .testingStop }
        | notification :: rest => some { s with
            manager := { s.manager with notificationsQueue := rest }
            observerThread := .popped notification
            popped := s.popped ++ [notification] }
    else none
  | .popped notification =>
    if s.observersMutex = none then
      some { s with
        observersMutex := some .observerThread
        observerThread := .scanning notification [] 0 .lockingDispatcher }
    else none
  | .scanning notification healthyObservers index scan =>
    some (s.snapshotStep notification healthyObservers index scan)
  | .dispatching notification healthyObservers index =>
    match healthyObservers[index]? with
    | some pair => some { s with
        observerThread := .inDispatch notification healthyObservers index
        dispatched := s.dispatched ++ [(notification, pair)] }
    | none => some { s with observerThread := .testingStop }
  | .inDispatch notification healthyObservers index =>
    some { s with observerThread := .dispatching notification healthyObservers (index + 1) }

/-- A step of the destructor. -/
def State.destructorStep (s : State Dispatcher Observer Tid) :
    Option (State Dispatcher Observer Tid) :=
  match s.destructor with
  | .alive =>
    if s.notificationsMutex = none then
      some { s with manager := { s.manager with isShuttingDown := true }, destructor := .notifying }
    else none
  | .notifying => some { s with
      observerThread := s.observerThread.notified
      destructor := .testingJoinable }
  | .testingJoinable => some { s with
      destructor := if s.observerThread = .notStarted then .destroyed else .joining }
  | .joining => if s.observerThread = .exited then some { s with destructor := .destroyed } else none
  | .destroyed => none

/-- One of the five state changes. The notification is sent before the locks go. -/
def State.changeState (s : State Dispatcher Observer Tid) (call : StateChange) :
    Option (State Dispatcher Observer Tid) :=
  if s.notificationsMutex = none then
    let (accepted, manager) := s.manager.tryChangingState call.nextRideState
    if accepted then
      some { s with
        manager
        observerThread := s.observerThread.notified
        accepted := s.accepted ++ [⟨s.manager.currentRideState, call.nextRideState⟩] }
    else some { s with manager }
  else none

/-- The thread is in no call. -/
def CallerPhase.outside {Dispatcher Observer : Type} : CallerPhase Dispatcher Observer → Bool
  | .idle | .returned _ => true
  | _ => false

/-- A thread calls with shared pointers, so what they point to is alive. -/
def State.call (s : State Dispatcher Observer Tid) (thread : Tid) (dispatcher : Option Dispatcher)
    (observer : Option Observer) (acquiring : CallerPhase Dispatcher Observer) :
    Option (State Dispatcher Observer Tid) :=
  if (s.callers thread).outside ∧ dispatcher.all s.dispatcherAlive ∧ observer.all s.observerAlive then
    some (s.setCaller thread acquiring)
  else none

/-- `run` starts the observer thread once, and not on a manager that is going away. -/
def State.step (s : State Dispatcher Observer Tid) :
    Action Dispatcher Observer Tid → Option (State Dispatcher Observer Tid)
  | .setStop => some { s with stop := true }
  | .run =>
    if s.observerThread = .notStarted ∧ s.destructor = .alive then
      some { s with observerThread := .testingStop }
    else none
  | .changeState call => s.changeState call
  | .subscribe thread (some dispatcher) (some observer) =>
    s.call thread (some dispatcher) (some observer) (.acquiringSubscribe dispatcher observer)
  | .subscribe thread dispatcher observer => s.call thread dispatcher observer (.returned false)
  | .unsubscribe thread (some observer) =>
    s.call thread none (some observer) (.acquiringUnsubscribe observer)
  | .unsubscribe thread none => s.call thread none none (.returned false)
  | .callerStep thread => s.callerStep thread
  | .observerStep => s.observerStep
  | .spuriousWake =>
    if s.observerThread = .blocked then some { s with observerThread := .acquiring } else none
  | .destructorStep => s.destructorStep
  | .retainDispatcher dispatcher =>
    if s.dispatcherAlive dispatcher then
      some { s with dispatcherOwned := Function.update s.dispatcherOwned dispatcher true }
    else none
  | .releaseDispatcher dispatcher =>
    some { s with dispatcherOwned := Function.update s.dispatcherOwned dispatcher false }
  | .retainObserver observer =>
    if s.observerAlive observer then
      some { s with observerOwned := Function.update s.observerOwned observer true }
    else none
  | .releaseObserver observer =>
    some { s with observerOwned := Function.update s.observerOwned observer false }

/-- A manager from its construction on, with any objects around it. -/
def rideMachine (Dispatcher Observer Tid : Type) [DecidableEq Dispatcher] [DecidableEq Observer]
    [Fintype Tid] [DecidableEq Tid] :
    transition.Machine (State Dispatcher Observer Tid) (Action Dispatcher Observer Tid) where
  init s := ∃ stop dispatcherOwned observerOwned, s = { stop, dispatcherOwned, observerOwned }
  step := State.step

end spdlogger.ride_state_manager
