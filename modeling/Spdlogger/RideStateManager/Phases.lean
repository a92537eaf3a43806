import Mathlib.Data.Fintype.Basic
import Mathlib.Logic.Function.Basic
import Spdlogger.RideStateManager.Data

namespace spdlogger.ride_state_manager

/-- Where a loop over `observers_` stands within one entry. Each `some` is a
shared pointer the loop holds; `found` marks the early return of `subscribe`. -/
inductive Scan (Dispatcher Observer : Type) where
  | lockingDispatcher
  | lockingObserver (dispatcher : Option Dispatcher)
  | deciding (dispatcher : Option Dispatcher) (observer : Option Observer)
  | releasingObserver (dispatcher : Option Dispatcher) (observer : Option Observer) (found : Bool)
  | releasingDispatcher (dispatcher : Option Dispatcher) (found : Bool)
  deriving DecidableEq

/-- The dispatcher that the iteration holds a reference to. -/
def Scan.dispatcher {Dispatcher Observer : Type} : Scan Dispatcher Observer → Option Dispatcher
  | .lockingDispatcher => none
  | .lockingObserver dispatcher | .deciding dispatcher _ | .releasingObserver dispatcher _ _
  | .releasingDispatcher dispatcher _ => dispatcher

/-- The observer that the iteration holds a reference to. -/
def Scan.observer {Dispatcher Observer : Type} : Scan Dispatcher Observer → Option Observer
  | .deciding _ observer | .releasingObserver _ observer _ => observer
  | .lockingDispatcher | .lockingObserver _ | .releasingDispatcher _ _ => none

/-- Where the observer thread stands. `acquiring` is about to test the predicate
of the wait under `notificationsMutex_`, at the first try and after a wake-up;
`scanning` holds `observersMutex_`; `inDispatch` is inside user code. -/
inductive ObserverPhase (Dispatcher Observer : Type) where
  | notStarted
  | testingStop
  | acquiring
  | blocked
  | popped (notification : NotificationData)
  | scanning (notification : NotificationData) (healthyObservers : List (Dispatcher × Observer))
      (index : Nat) (scan : Scan Dispatcher Observer)
  | dispatching (notification : NotificationData) (healthyObservers : List (Dispatcher × Observer))
      (index : Nat)
  | inDispatch (notification : NotificationData) (healthyObservers : List (Dispatcher × Observer))
      (index : Nat)
  | exited
  deriving DecidableEq

/-- Where a thread inside `subscribe` or `unsubscribe` stands. The loops run
under both `observersMutex_` and `notificationsMutex_`. -/
inductive CallerPhase (Dispatcher Observer : Type) where
  | idle
  | acquiringSubscribe (dispatcher : Dispatcher) (observer : Observer)
  | subscribing (dispatcher : Dispatcher) (observer : Observer) (index : Nat)
      (scan : Scan Dispatcher Observer)
  | acquiringUnsubscribe (observer : Observer)
  | unsubscribing (observer : Observer) (index : Nat) (scan : Scan Dispatcher Observer)
  | returned (result : Bool)
  deriving DecidableEq

/-- Where the thread destroying the manager stands. -/
inductive DestructorPhase where
  | alive
  | notifying
  | testingJoinable
  | joining
  | destroyed
  deriving DecidableEq, Repr

/-- A notification reaches the observer thread only while it is blocked. -/
def ObserverPhase.notified {Dispatcher Observer : Type} :
    ObserverPhase Dispatcher Observer → ObserverPhase Dispatcher Observer
  | .blocked => .acquiring
  | phase => phase

/-- A thread that is not blocked is not affected by a notification. -/
theorem ObserverPhase.notified_of_ne {Dispatcher Observer : Type}
    {phase : ObserverPhase Dispatcher Observer} (hphase : phase ≠ .blocked) :
    phase.notified = phase := by
  cases phase with
  | blocked => exact absurd rfl hphase
  | _ => rfl

theorem ObserverPhase.notified_eq_exited {Dispatcher Observer : Type}
    {phase : ObserverPhase Dispatcher Observer} : phase.notified = .exited ↔ phase = .exited := by
  cases phase <;> simp [ObserverPhase.notified]

theorem ObserverPhase.notified_eq_notStarted {Dispatcher Observer : Type}
    {phase : ObserverPhase Dispatcher Observer} :
    phase.notified = .notStarted ↔ phase = .notStarted := by
  cases phase <;> simp [ObserverPhase.notified]

section References

variable {Dispatcher Observer : Type} [DecidableEq Dispatcher] [DecidableEq Observer]

/-- The shared pointers to a dispatcher among the locals of the observer thread. -/
def ObserverPhase.holdsDispatcher (dispatcher : Dispatcher) :
    ObserverPhase Dispatcher Observer → Bool
  | .scanning _ healthyObservers _ scan =>
    dispatcher ∈ healthyObservers.map Prod.fst || scan.dispatcher = some dispatcher
  | .dispatching _ healthyObservers _ | .inDispatch _ healthyObservers _ =>
    dispatcher ∈ healthyObservers.map Prod.fst
  | _ => false

/-- The observer thread holds a reference to the observer. -/
def ObserverPhase.holdsObserver (observer : Observer) : ObserverPhase Dispatcher Observer → Bool
  | .scanning _ healthyObservers _ scan =>
    observer ∈ healthyObservers.map Prod.snd || scan.observer = some observer
  | .dispatching _ healthyObservers _ | .inDispatch _ healthyObservers _ =>
    observer ∈ healthyObservers.map Prod.snd
  | _ => false

/-- The arguments of a call are shared pointers of its caller. -/
def CallerPhase.holdsDispatcher (dispatcher : Dispatcher) : CallerPhase Dispatcher Observer → Bool
  | .acquiringSubscribe argument _ => argument = dispatcher
  | .subscribing argument _ _ scan => argument = dispatcher || scan.dispatcher = some dispatcher
  | .unsubscribing _ _ scan => scan.dispatcher = some dispatcher
  | .idle | .acquiringUnsubscribe _ | .returned _ => false

/-- The call holds a reference to the observer. -/
def CallerPhase.holdsObserver (observer : Observer) : CallerPhase Dispatcher Observer → Bool
  | .acquiringSubscribe _ argument | .acquiringUnsubscribe argument => argument = observer
  | .subscribing _ argument _ scan | .unsubscribing argument _ scan =>
    argument = observer || scan.observer = some observer
  | .idle | .returned _ => false

end References

/-- Who holds `observersMutex_`. -/
inductive Holder (Tid : Type) where
  | observerThread
  | caller (thread : Tid)
  deriving DecidableEq

/-- The manager with its observer thread, the threads calling into it and the
outside owners of dispatchers and observers. `accepted`, `popped`, `snapshots` and
`dispatched` record what has happened so far. -/
structure State (Dispatcher Observer Tid : Type) where
  manager : RideStateManagerTest Dispatcher Observer := {}
  stop : Bool := false
  observersMutex : Option (Holder Tid) := none
  notificationsMutex : Option Tid := none
  observerThread : ObserverPhase Dispatcher Observer := .notStarted
  callers : Tid → CallerPhase Dispatcher Observer := fun _ => .idle
  destructor : DestructorPhase := .alive
  dispatcherOwned : Dispatcher → Bool := fun _ => false
  observerOwned : Observer → Bool := fun _ => false
  accepted : List NotificationData := []
  popped : List NotificationData := []
  snapshots : List (NotificationData × List (Dispatcher × Observer)) := []
  dispatched : List (NotificationData × (Dispatcher × Observer)) := []

section Liveness

variable {Dispatcher Observer Tid : Type} [DecidableEq Dispatcher] [DecidableEq Observer]
  [Fintype Tid]

/-- A weak pointer can be locked as long as somebody holds a shared pointer. -/
def State.dispatcherAlive (s : State Dispatcher Observer Tid) (dispatcher : Dispatcher) : Bool :=
  s.dispatcherOwned dispatcher || s.observerThread.holdsDispatcher dispatcher ||
    decide (∃ thread, (s.callers thread).holdsDispatcher dispatcher)

/-- Somebody has a reference to the observer. -/
def State.observerAlive (s : State Dispatcher Observer Tid) (observer : Observer) : Bool :=
  s.observerOwned observer || s.observerThread.holdsObserver observer ||
    decide (∃ thread, (s.callers thread).holdsObserver observer)

/-- `iter->dispatcher.lock()`. -/
def State.lockDispatcher (s : State Dispatcher Observer Tid) (index : Nat) : Option Dispatcher :=
  s.manager.observers[index]?.bind fun entry =>
    if s.dispatcherAlive entry.dispatcher then some entry.dispatcher else none

/-- `iter->observer.lock()`. -/
def State.lockObserver (s : State Dispatcher Observer Tid) (index : Nat) : Option Observer :=
  s.manager.observers[index]?.bind fun entry =>
    if s.observerAlive entry.observer then some entry.observer else none

end Liveness

end spdlogger.ride_state_manager
