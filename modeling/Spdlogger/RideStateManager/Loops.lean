import Spdlogger.RideStateManager.Step

namespace spdlogger.ride_state_manager

variable {Dispatcher Observer Tid : Type} [DecidableEq Dispatcher] [DecidableEq Observer]
  [Fintype Tid] [DecidableEq Tid]

/-- The steps of the loop in `subscribe`, by where the loop stands and what comes of it. -/
inductive State.SubscribeMove (s : State Dispatcher Observer Tid) (thread : Tid)
    (dispatcher : Dispatcher) (observer : Observer) (index : Nat) :
    Scan Dispatcher Observer → State Dispatcher Observer Tid → Prop where
  | lockDispatcher (hlt : index < s.manager.observers.length) :
      SubscribeMove s thread dispatcher observer index .lockingDispatcher
        (s.setCaller thread (.subscribing dispatcher observer index
          (.lockingObserver (s.lockDispatcher index))))
  | append (hend : s.manager.observers.length ≤ index) :
      SubscribeMove s thread dispatcher observer index .lockingDispatcher
        ((s.appendEntry dispatcher observer).finishCall thread true)
  | lockObserver (currentDispatcher : Option Dispatcher) :
      SubscribeMove s thread dispatcher observer index (.lockingObserver currentDispatcher)
        (s.setCaller thread (.subscribing dispatcher observer index
          (.deciding currentDispatcher (s.lockObserver index))))
  | find :
      SubscribeMove s thread dispatcher observer index (.deciding (some dispatcher) (some observer))
        (s.setCaller thread (.subscribing dispatcher observer index
          (.releasingObserver (some dispatcher) (some observer) true)))
  | pass (d : Dispatcher) (o : Observer) (hother : ¬ (d = dispatcher ∧ o = observer)) :
      SubscribeMove s thread dispatcher observer index (.deciding (some d) (some o))
        (s.setCaller thread (.subscribing dispatcher observer (index + 1)
          (.releasingObserver (some d) (some o) false)))
  | erase (currentDispatcher : Option Dispatcher) (currentObserver : Option Observer)
      (hnone : ∀ d o, currentDispatcher = some d → currentObserver = some o → False) :
      SubscribeMove s thread dispatcher observer index (.deciding currentDispatcher currentObserver)
        ((s.eraseEntry index).setCaller thread (.subscribing dispatcher observer index
          (.releasingObserver currentDispatcher currentObserver false)))
  | releaseObserver (currentDispatcher : Option Dispatcher) (currentObserver : Option Observer)
      (found : Bool) :
      SubscribeMove s thread dispatcher observer index
        (.releasingObserver currentDispatcher currentObserver found)
        (s.setCaller thread (.subscribing dispatcher observer index
          (.releasingDispatcher currentDispatcher found)))
  | reject (currentDispatcher : Option Dispatcher) :
      SubscribeMove s thread dispatcher observer index (.releasingDispatcher currentDispatcher true)
        (s.finishCall thread false)
  | next (currentDispatcher : Option Dispatcher) :
      SubscribeMove s thread dispatcher observer index (.releasingDispatcher currentDispatcher false)
        (s.setCaller thread (.subscribing dispatcher observer index .lockingDispatcher))

/-- A step of the loop in `subscribe` is one of these. -/
theorem State.subscribeMove (s : State Dispatcher Observer Tid) (thread : Tid)
    (dispatcher : Dispatcher) (observer : Observer) (index : Nat)
    (scan : Scan Dispatcher Observer) :
    s.SubscribeMove thread dispatcher observer index scan
      (s.subscribeStep thread dispatcher observer index scan) := by
  unfold State.subscribeStep
  split
  · split
    case isTrue hlt => exact .lockDispatcher hlt
    case isFalse hend => exact .append (Nat.le_of_not_lt hend)
  case h_2 currentDispatcher => exact .lockObserver currentDispatcher
  case h_3 d o =>
    by_cases hfound : d = dispatcher ∧ o = observer
    · obtain ⟨rfl, rfl⟩ := hfound
      simpa using State.SubscribeMove.find
    · have hmatch : (decide (d = dispatcher) && decide (o = observer)) = false := by
        simpa only [Bool.and_eq_false_iff, decide_eq_false_iff_not] using not_and_or.mp hfound
      simp only [hmatch]
      exact .pass d o hfound
  case h_4 currentDispatcher currentObserver hnone => exact .erase _ _ hnone
  case h_5 currentDispatcher currentObserver found => exact .releaseObserver _ _ found
  case h_6 currentDispatcher => exact .reject currentDispatcher
  case h_7 currentDispatcher => exact .next currentDispatcher

/-- Where the loop of `unsubscribe` is about to lock the observer of an entry. -/
def Scan.locking {Dispatcher Observer : Type} : Scan Dispatcher Observer → Bool
  | .lockingDispatcher | .lockingObserver _ => true
  | .deciding _ _ | .releasingObserver _ _ _ | .releasingDispatcher _ _ => false

/-- The iteration is at its end, where its shared pointers go. -/
def Scan.releasing {Dispatcher Observer : Type} : Scan Dispatcher Observer → Bool
  | .releasingObserver _ _ _ | .releasingDispatcher _ _ => true
  | .lockingDispatcher | .lockingObserver _ | .deciding _ _ => false

theorem Scan.observer_of_locking {Dispatcher Observer : Type} {scan : Scan Dispatcher Observer}
    (hlocking : scan.locking) : scan.observer = none := by
  cases scan with
  | lockingDispatcher | lockingObserver => rfl
  | _ => cases hlocking

/-- The steps of the loop in `unsubscribe`. -/
inductive State.UnsubscribeMove (s : State Dispatcher Observer Tid) (thread : Tid)
    (observer : Observer) (index : Nat) :
    Scan Dispatcher Observer → State Dispatcher Observer Tid → Prop where
  | lockObserver (scan : Scan Dispatcher Observer) (hlocking : scan.locking)
      (hlt : index < s.manager.observers.length) :
      UnsubscribeMove s thread observer index scan
        (s.setCaller thread (.unsubscribing observer index (.deciding none (s.lockObserver index))))
  | finish (scan : Scan Dispatcher Observer) (hlocking : scan.locking)
      (hend : s.manager.observers.length ≤ index) :
      UnsubscribeMove s thread observer index scan (s.finishCall thread true)
  | erase (currentDispatcher : Option Dispatcher) :
      UnsubscribeMove s thread observer index (.deciding currentDispatcher (some observer))
        ((s.eraseEntry index).setCaller thread (.unsubscribing observer index
          (.releasingObserver none (some observer) false)))
  | pass (currentDispatcher : Option Dispatcher) (o : Observer) (hother : o ≠ observer) :
      UnsubscribeMove s thread observer index (.deciding currentDispatcher (some o))
        (s.setCaller thread (.unsubscribing observer (index + 1)
          (.releasingObserver none (some o) false)))
  | eraseExpired (currentDispatcher : Option Dispatcher) :
      UnsubscribeMove s thread observer index (.deciding currentDispatcher none)
        ((s.eraseEntry index).setCaller thread (.unsubscribing observer index
          (.releasingObserver none none false)))
  | next (scan : Scan Dispatcher Observer) (hreleasing : scan.releasing) :
      UnsubscribeMove s thread observer index scan
        (s.setCaller thread (.unsubscribing observer index (.lockingObserver none)))

omit [DecidableEq Dispatcher] in
/-- A step of the loop in `unsubscribe` is one of these. -/
theorem State.unsubscribeMove (s : State Dispatcher Observer Tid) (thread : Tid)
    (observer : Observer) (index : Nat) (scan : Scan Dispatcher Observer) :
    s.UnsubscribeMove thread observer index scan
      (s.unsubscribeStep thread observer index scan) := by
  unfold State.unsubscribeStep
  split
  case h_1 | h_2 =>
    split
    case isTrue hlt => exact .lockObserver _ rfl hlt
    case isFalse hend => exact .finish _ rfl (Nat.le_of_not_lt hend)
  case h_3 currentDispatcher o =>
    dsimp only
    split
    case isTrue hfound =>
      subst hfound
      exact .erase currentDispatcher
    case isFalse hother => exact .pass currentDispatcher o hother
  case h_4 currentDispatcher => exact .eraseExpired currentDispatcher
  case h_5 | h_6 => exact .next _ rfl

/-- The steps of the observer thread's loop. -/
inductive State.SnapshotMove (s : State Dispatcher Observer Tid) (notification : NotificationData)
    (healthyObservers : List (Dispatcher × Observer)) (index : Nat) :
    Scan Dispatcher Observer → State Dispatcher Observer Tid → Prop where
  | lockDispatcher (hlt : index < s.manager.observers.length) :
      SnapshotMove s notification healthyObservers index .lockingDispatcher
        { s with
          observerThread := .scanning notification healthyObservers index
            (.lockingObserver (s.lockDispatcher index)) }
  | leave (hend : s.manager.observers.length ≤ index) :
      SnapshotMove s notification healthyObservers index .lockingDispatcher
        { s with
          observersMutex := none
          observerThread := .dispatching notification healthyObservers 0
          snapshots := s.snapshots ++ [(notification, healthyObservers)] }
  | lockObserver (dispatcher : Option Dispatcher) :
      SnapshotMove s notification healthyObservers index (.lockingObserver dispatcher)
        { s with
          observerThread := .scanning notification healthyObservers index
            (.deciding dispatcher (s.lockObserver index)) }
  | copy (dispatcher : Dispatcher) (observer : Observer) :
      SnapshotMove s notification healthyObservers index (.deciding (some dispatcher) (some observer))
        { s with
          observerThread :=
            .scanning notification (healthyObservers ++ [(dispatcher, observer)]) (index + 1)
              (.releasingObserver (some dispatcher) (some observer) false) }
  | erase (dispatcher : Option Dispatcher) (observer : Option Observer)
      (hnone : ∀ d o, dispatcher = some d → observer = some o → False) :
      SnapshotMove s notification healthyObservers index (.deciding dispatcher observer)
        { s.eraseEntry index with
          observerThread := .scanning notification healthyObservers index
            (.releasingObserver dispatcher observer false) }
  | releaseObserver (dispatcher : Option Dispatcher) (observer : Option Observer) (found : Bool) :
      SnapshotMove s notification healthyObservers index
        (.releasingObserver dispatcher observer found)
        { s with
          observerThread := .scanning notification healthyObservers index
            (.releasingDispatcher dispatcher false) }
  | next (dispatcher : Option Dispatcher) (found : Bool) :
      SnapshotMove s notification healthyObservers index (.releasingDispatcher dispatcher found)
        { s with
          observerThread :=
            .scanning notification healthyObservers index .lockingDispatcher }

omit [DecidableEq Tid] in
/-- A step of the observer thread's loop is one of these. -/
theorem State.snapshotMove (s : State Dispatcher Observer Tid) (notification : NotificationData)
    (healthyObservers : List (Dispatcher × Observer)) (index : Nat)
    (scan : Scan Dispatcher Observer) :
    s.SnapshotMove notification healthyObservers index scan
      (s.snapshotStep notification healthyObservers index scan) := by
  unfold State.snapshotStep
  split
  · split
    case isTrue hlt => exact .lockDispatcher hlt
    case isFalse hend => exact .leave (Nat.le_of_not_lt hend)
  case h_2 dispatcher => exact .lockObserver dispatcher
  case h_3 dispatcher observer => exact .copy dispatcher observer
  case h_4 dispatcher observer hnone => exact .erase dispatcher observer hnone
  case h_5 dispatcher observer found => exact .releaseObserver dispatcher observer found
  case h_6 dispatcher found => exact .next dispatcher found

end spdlogger.ride_state_manager
