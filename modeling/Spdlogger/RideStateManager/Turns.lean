import Spdlogger.RideStateManager.Moves

namespace spdlogger.ride_state_manager

section Phases

variable {Dispatcher Observer : Type}

/-- The phases in which the observer thread has no copies of shared pointers. -/
def ObserverPhase.resting : ObserverPhase Dispatcher Observer → Bool
  | .scanning _ _ _ _ | .dispatching _ _ _ | .inDispatch _ _ _ => false
  | _ => true

/-- `healthyObservers`, as far as it is in scope. -/
def ObserverPhase.copied : ObserverPhase Dispatcher Observer → List (Dispatcher × Observer)
  | .scanning _ healthyObservers _ _ | .dispatching _ healthyObservers _
  | .inDispatch _ healthyObservers _ => healthyObservers
  | _ => []

/-- The observer thread is in its loop over `observers_`. -/
def ObserverPhase.scans : ObserverPhase Dispatcher Observer → Bool
  | .scanning _ _ _ _ => true
  | _ => false

/-- The call is in its loop over `observers_`. -/
def CallerPhase.scans : CallerPhase Dispatcher Observer → Bool
  | .subscribing _ _ _ _ | .unsubscribing _ _ _ => true
  | _ => false

/-- A resting thread is not in its loop. -/
theorem ObserverPhase.scans_of_resting {phase : ObserverPhase Dispatcher Observer}
    (hresting : phase.resting) : phase.scans = false := by
  cases phase with
  | scanning => cases hresting
  | _ => rfl

/-- A notification changes nothing, or moves a resting thread to another resting phase. -/
theorem ObserverPhase.notified_resting (phase : ObserverPhase Dispatcher Observer) :
    phase.notified = phase ∨ phase.resting ∧ phase.notified.resting := by
  cases phase with
  | blocked => exact .inr ⟨rfl, rfl⟩
  | _ => exact .inl rfl

/-- A thread outside the methods is in no loop. -/
theorem CallerPhase.scans_of_outside {phase : CallerPhase Dispatcher Observer}
    (houtside : phase.outside) : phase.scans = false := by
  cases phase with
  | idle | returned => rfl
  | _ => cases houtside

theorem ObserverPhase.holdsDispatcher_of_resting [DecidableEq Dispatcher]
    {phase : ObserverPhase Dispatcher Observer} (hresting : phase.resting)
    (dispatcher : Dispatcher) : phase.holdsDispatcher dispatcher = false := by
  cases phase with
  | scanning | dispatching | inDispatch => cases hresting
  | _ => rfl

theorem ObserverPhase.holdsObserver_of_resting [DecidableEq Observer]
    {phase : ObserverPhase Dispatcher Observer} (hresting : phase.resting) (observer : Observer) :
    phase.holdsObserver observer = false := by
  cases phase with
  | scanning | dispatching | inDispatch => cases hresting
  | _ => rfl

end Phases

variable {Dispatcher Observer Tid : Type} [DecidableEq Dispatcher] [DecidableEq Observer]
  [Fintype Tid] [DecidableEq Tid]

/-- What concerns the loops over `observers_`, apart from who runs them. -/
structure State.ScanFrame (s next : State Dispatcher Observer Tid) : Prop where
  observers : next.manager.observers = s.manager.observers
  observersMutex : next.observersMutex = s.observersMutex
  notificationsMutex : next.notificationsMutex = s.notificationsMutex
  callers : next.callers = s.callers
  snapshots : next.snapshots = s.snapshots
  dispatched : next.dispatched = s.dispatched

/-- The outside owners. -/
def Action.isOwner : Action Dispatcher Observer Tid → Bool
  | .retainDispatcher _ | .releaseDispatcher _ | .retainObserver _ | .releaseObserver _ => true
  | _ => false

/-- What a step does to the loops over `observers_` and to the shared pointers. -/
inductive State.Turn (s next : State Dispatcher Observer Tid) :
    Action Dispatcher Observer Tid → Prop where
  | elsewhere {action : Action Dispatcher Observer Tid} (hframe : s.ScanFrame next)
      (hdispatchers : next.dispatcherOwned = s.dispatcherOwned)
      (hobservers : next.observerOwned = s.observerOwned)
      (hthread : next.observerThread = s.observerThread ∨
        s.observerThread.resting ∧ next.observerThread.resting) : Turn s next action
  | owner {action : Action Dispatcher Observer Tid} (hframe : s.ScanFrame next)
      (hthread : next.observerThread = s.observerThread) (howner : action.isOwner) :
      Turn s next action
  | call {action : Action Dispatcher Observer Tid} (thread : Tid)
      (phase : CallerPhase Dispatcher Observer) (houtside : (s.callers thread).outside)
      (hscans : phase.scans = false)
      (hdispatcher : ∀ dispatcher, phase.holdsDispatcher dispatcher → s.dispatcherAlive dispatcher)
      (hobserver : ∀ observer, phase.holdsObserver observer → s.observerAlive observer)
      (hnext : next = s.setCaller thread phase) : Turn s next action
  | callerStep (thread : Tid) (hstep : s.callerStep thread = some next) :
      Turn s next (.callerStep thread)
  | lock (notification : NotificationData) (hphase : s.observerThread = .popped notification)
      (hfree : s.observersMutex = none)
      (hnext : next = { s with
        observersMutex := some .observerThread
        observerThread := .scanning notification [] 0 .lockingDispatcher }) :
      Turn s next .observerStep
  | scan (notification : NotificationData) (healthyObservers : List (Dispatcher × Observer))
      (index : Nat) (scan : Scan Dispatcher Observer)
      (hphase : s.observerThread = .scanning notification healthyObservers index scan)
      (hnext : next = s.snapshotStep notification healthyObservers index scan) :
      Turn s next .observerStep
  | dispatch (notification : NotificationData) (healthyObservers : List (Dispatcher × Observer))
      (index : Nat) (pair : Dispatcher × Observer)
      (hphase : s.observerThread = .dispatching notification healthyObservers index)
      (hpair : healthyObservers[index]? = some pair)
      (hnext : next = { s with
        observerThread := .inDispatch notification healthyObservers index
        dispatched := s.dispatched ++ [(notification, pair)] }) : Turn s next .observerStep
  | resume (notification : NotificationData) (healthyObservers : List (Dispatcher × Observer))
      (index : Nat) (hphase : s.observerThread = .inDispatch notification healthyObservers index)
      (hnext : next = { s with
        observerThread := .dispatching notification healthyObservers (index + 1) }) :
      Turn s next .observerStep
  | finish (notification : NotificationData) (healthyObservers : List (Dispatcher × Observer))
      (index : Nat) (hphase : s.observerThread = .dispatching notification healthyObservers index)
      (hend : healthyObservers[index]? = none)
      (hnext : next = { s with observerThread := .testingStop }) : Turn s next .observerStep

theorem State.turn_of_observerStep {s next : State Dispatcher Observer Tid}
    (hstep : s.observerStep = some next) : s.Turn next .observerStep := by
  cases State.observerMove_of_step hstep with
  | stop hphase | goOn hphase | sleep hphase | leave hphase | pop _ _ hphase =>
    exact .elsewhere ⟨rfl, rfl, rfl, rfl, rfl, rfl⟩ rfl rfl (.inr ⟨by rw [hphase]; rfl, rfl⟩)
  | lock notification hphase hfree => exact .lock notification hphase hfree rfl
  | scan notification healthyObservers index scan hphase =>
    exact .scan notification healthyObservers index scan hphase rfl
  | dispatch notification healthyObservers index pair hphase hpair =>
    exact .dispatch notification healthyObservers index pair hphase hpair rfl
  | finish notification healthyObservers index hphase hend =>
    exact .finish notification healthyObservers index hphase hend rfl
  | resume notification healthyObservers index hphase =>
    exact .resume notification healthyObservers index hphase rfl

theorem State.turn_of_call {s next : State Dispatcher Observer Tid} {thread : Tid}
    {dispatcher : Option Dispatcher} {observer : Option Observer}
    {acquiring : CallerPhase Dispatcher Observer} {action : Action Dispatcher Observer Tid}
    (hstep : s.call thread dispatcher observer acquiring = some next)
    (hscans : acquiring.scans = false)
    (hdispatcher : ∀ d, acquiring.holdsDispatcher d → dispatcher = some d)
    (hobserver : ∀ o, acquiring.holdsObserver o → observer = some o) : s.Turn next action := by
  simp only [State.call, Option.ite_none_right_eq_some, Option.some.injEq] at hstep
  obtain ⟨⟨houtside, hdispatcherAlive, hobserverAlive⟩, rfl⟩ := hstep
  refine .call thread acquiring houtside hscans (fun d hd => ?_) (fun o ho => ?_) rfl
  · rw [hdispatcher d hd] at hdispatcherAlive
    exact hdispatcherAlive
  · rw [hobserver o ho] at hobserverAlive
    exact hobserverAlive

/-- Every step is a turn. -/
theorem State.turn_of_step {s next : State Dispatcher Observer Tid}
    {action : Action Dispatcher Observer Tid} (hstep : s.step action = some next) :
    s.Turn next action := by
  cases action with
  | setStop =>
    simp only [State.step, Option.some.injEq] at hstep
    subst hstep
    exact .elsewhere ⟨rfl, rfl, rfl, rfl, rfl, rfl⟩ rfl rfl (.inl rfl)
  | run =>
    simp only [State.step, Option.ite_none_right_eq_some, Option.some.injEq] at hstep
    obtain ⟨⟨hphase, _⟩, rfl⟩ := hstep
    exact .elsewhere ⟨rfl, rfl, rfl, rfl, rfl, rfl⟩ rfl rfl (.inr ⟨by rw [hphase]; rfl, rfl⟩)
  | changeState call =>
    obtain ⟨_, ⟨_, rfl⟩ | ⟨_, rfl⟩⟩ := State.changeState_cases hstep
    · exact .elsewhere ⟨rfl, rfl, rfl, rfl, rfl, rfl⟩ rfl rfl s.observerThread.notified_resting
    · exact .elsewhere ⟨rfl, rfl, rfl, rfl, rfl, rfl⟩ rfl rfl (.inl rfl)
  | subscribe thread dispatcher observer =>
    cases dispatcher <;> cases observer <;>
      exact State.turn_of_call hstep rfl (by simp [CallerPhase.holdsDispatcher])
        (by simp [CallerPhase.holdsObserver])
  | unsubscribe thread observer =>
    cases observer <;>
      exact State.turn_of_call hstep rfl (by simp [CallerPhase.holdsDispatcher])
        (by simp [CallerPhase.holdsObserver])
  | callerStep thread => exact .callerStep thread hstep
  | observerStep => exact State.turn_of_observerStep hstep
  | spuriousWake =>
    simp only [State.step, Option.ite_none_right_eq_some, Option.some.injEq] at hstep
    obtain ⟨hphase, rfl⟩ := hstep
    exact .elsewhere ⟨rfl, rfl, rfl, rfl, rfl, rfl⟩ rfl rfl (.inr ⟨by rw [hphase]; rfl, rfl⟩)
  | destructorStep =>
    obtain ⟨_, _, rfl⟩ | ⟨_, rfl⟩ | ⟨_, rfl⟩ | ⟨_, _, rfl⟩ := State.destructorStep_cases hstep
    · exact .elsewhere ⟨rfl, rfl, rfl, rfl, rfl, rfl⟩ rfl rfl (.inl rfl)
    · exact .elsewhere ⟨rfl, rfl, rfl, rfl, rfl, rfl⟩ rfl rfl s.observerThread.notified_resting
    · exact .elsewhere ⟨rfl, rfl, rfl, rfl, rfl, rfl⟩ rfl rfl (.inl rfl)
    · exact .elsewhere ⟨rfl, rfl, rfl, rfl, rfl, rfl⟩ rfl rfl (.inl rfl)
  | retainDispatcher | retainObserver =>
    simp only [State.step, Option.ite_none_right_eq_some, Option.some.injEq] at hstep
    obtain ⟨_, rfl⟩ := hstep
    exact .owner ⟨rfl, rfl, rfl, rfl, rfl, rfl⟩ rfl rfl
  | releaseDispatcher | releaseObserver =>
    simp only [State.step, Option.some.injEq] at hstep
    subst hstep
    exact .owner ⟨rfl, rfl, rfl, rfl, rfl, rfl⟩ rfl rfl

/-- The begin of a call under both locks, or a step of its loop. -/
theorem State.callerStep_cases {s next : State Dispatcher Observer Tid} {thread : Tid}
    (hstep : s.callerStep thread = some next) :
    (s.callers thread).scans = false ∧ s.observersMutex = none ∧ s.notificationsMutex = none ∧
        (next = s.setCaller thread (.returned false) ∨
          ∃ phase, next = { s.setCaller thread phase with
              observersMutex := some (.caller thread), notificationsMutex := some thread } ∧
            ((∃ dispatcher observer,
                s.callers thread = .acquiringSubscribe dispatcher observer ∧
                phase = .subscribing dispatcher observer 0 .lockingDispatcher) ∨
              ∃ observer, s.callers thread = .acquiringUnsubscribe observer ∧
                phase = .unsubscribing observer 0 (.lockingObserver none))) ∨
      (∃ dispatcher observer index scan,
        s.callers thread = .subscribing dispatcher observer index scan ∧
        next = s.subscribeStep thread dispatcher observer index scan) ∨
      ∃ observer index scan, s.callers thread = .unsubscribing observer index scan ∧
        next = s.unsubscribeStep thread observer index scan := by
  unfold State.callerStep at hstep
  cases hphase : s.callers thread with
  | idle | returned => simp [hphase] at hstep
  | acquiringSubscribe dispatcher observer =>
    simp only [hphase, Option.ite_none_right_eq_some] at hstep
    obtain ⟨⟨hobservers, hnotifications⟩, hstep⟩ := hstep
    refine .inl ⟨rfl, hobservers, hnotifications, ?_⟩
    split at hstep
    · exact .inl (Option.some.inj hstep).symm
    · exact .inr ⟨_, (Option.some.inj hstep).symm, .inl ⟨dispatcher, observer, rfl, rfl⟩⟩
  | acquiringUnsubscribe observer =>
    simp only [hphase, Option.ite_none_right_eq_some] at hstep
    obtain ⟨⟨hobservers, hnotifications⟩, hstep⟩ := hstep
    refine .inl ⟨rfl, hobservers, hnotifications, ?_⟩
    split at hstep
    · exact .inl (Option.some.inj hstep).symm
    · exact .inr ⟨_, (Option.some.inj hstep).symm, .inr ⟨observer, rfl, rfl⟩⟩
  | subscribing dispatcher observer index scan =>
    simp only [hphase, Option.some.injEq] at hstep
    exact .inr (.inl ⟨dispatcher, observer, index, scan, rfl, hstep.symm⟩)
  | unsubscribing observer index scan =>
    simp only [hphase, Option.some.injEq] at hstep
    exact .inr (.inr ⟨observer, index, scan, rfl, hstep.symm⟩)

end spdlogger.ride_state_manager
