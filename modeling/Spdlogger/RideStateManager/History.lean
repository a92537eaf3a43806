import Spdlogger.RideStateManager.Moves

namespace spdlogger.ride_state_manager

variable {Dispatcher Observer Tid : Type} [DecidableEq Dispatcher] [DecidableEq Observer]
  [Fintype Tid] [DecidableEq Tid]

/-- What the steps of the observer thread leave alone outside the critical
section around its wait. -/
structure State.QueueFrame (s next : State Dispatcher Observer Tid) : Prop where
  currentRideState : next.manager.currentRideState = s.manager.currentRideState
  notificationsQueue : next.manager.notificationsQueue = s.manager.notificationsQueue
  isShuttingDown : next.manager.isShuttingDown = s.manager.isShuttingDown
  destructor : next.destructor = s.destructor
  accepted : next.accepted = s.accepted
  popped : next.popped = s.popped

omit [DecidableEq Dispatcher] [DecidableEq Observer] [Fintype Tid] [DecidableEq Tid] in
/-- The calls leave the queue alone. -/
theorem State.CallFrame.queueFrame {s next : State Dispatcher Observer Tid} (h : s.CallFrame next) :
    s.QueueFrame next :=
  ⟨h.currentRideState, h.notificationsQueue, h.isShuttingDown, h.destructor, h.accepted, h.popped⟩

omit [DecidableEq Tid] in
theorem State.queueFrame_snapshotStep (s : State Dispatcher Observer Tid)
    (notification : NotificationData) (healthyObservers : List (Dispatcher × Observer))
    (index : Nat) (scan : Scan Dispatcher Observer) :
    s.QueueFrame (s.snapshotStep notification healthyObservers index scan) := by
  have hmove := s.snapshotMove notification healthyObservers index scan
  generalize s.snapshotStep notification healthyObservers index scan = next at hmove
  cases hmove <;> constructor <;> rfl

omit [DecidableEq Tid] in
theorem State.queueFrame_observerStep {s next : State Dispatcher Observer Tid}
    (hphase : s.observerThread ≠ .acquiring) (hstep : s.observerStep = some next) :
    s.QueueFrame next := by
  cases State.observerMove_of_step hstep with
  | sleep hacquiring | leave hacquiring | pop _ _ hacquiring => exact absurd hacquiring hphase
  | scan notification healthyObservers index scan =>
    exact s.queueFrame_snapshotStep notification healthyObservers index scan
  | stop | goOn | lock | dispatch | finish | resume => constructor <;> rfl

/-- The accepted transitions are those popped and those still queued, and they
lead from the initial state of the ride to its current one. -/
structure State.RideHistory (s : State Dispatcher Observer Tid) : Prop where
  accepted_eq : s.popped ++ s.manager.notificationsQueue = s.accepted
  history : IsHistory .idle s.accepted s.manager.currentRideState
  bounded : s.manager.notificationsQueue.length ≤ k_maxPendingNotifications

omit [DecidableEq Dispatcher] [DecidableEq Observer] [Fintype Tid] [DecidableEq Tid] in
/-- A step that leaves the queue alone keeps the history. -/
theorem State.RideHistory.frame {s next : State Dispatcher Observer Tid} (h : s.RideHistory)
    (hframe : s.QueueFrame next) : next.RideHistory := by
  refine ⟨?_, ?_, ?_⟩
  · rw [hframe.popped, hframe.notificationsQueue, hframe.accepted, h.accepted_eq]
  · rw [hframe.accepted, hframe.currentRideState]
    exact h.history
  · rw [hframe.notificationsQueue]
    exact h.bounded

omit [DecidableEq Dispatcher] [DecidableEq Observer] [Fintype Tid] [DecidableEq Tid] in
/-- A state change keeps the history. -/
theorem State.RideHistory.changeState {s next : State Dispatcher Observer Tid} (h : s.RideHistory)
    {call : StateChange} (hstep : s.changeState call = some next) : next.RideHistory := by
  obtain ⟨_, ⟨haccepts, rfl⟩ | ⟨_, rfl⟩⟩ := State.changeState_cases hstep
  · refine ⟨?_, h.history.append haccepts.valid, ?_⟩
    · rw [← List.append_assoc, h.accepted_eq]
    · have hroom := haccepts.room
      rw [List.length_append, List.length_singleton]
      omega
  · exact h

omit [DecidableEq Tid] in
/-- A step of the observer thread keeps the history. -/
theorem State.RideHistory.observerStep {s next : State Dispatcher Observer Tid} (h : s.RideHistory)
    (hstep : s.observerStep = some next) : next.RideHistory := by
  by_cases hphase : s.observerThread = .acquiring
  · obtain ⟨_, hcases⟩ := State.acquiring_cases hphase hstep
    obtain ⟨_, _, rfl⟩ | ⟨_, _, rfl⟩ | ⟨notification, rest, hqueue, rfl⟩ := hcases
    · exact ⟨h.accepted_eq, h.history, h.bounded⟩
    · exact ⟨h.accepted_eq, h.history, h.bounded⟩
    · have haccepted := h.accepted_eq
      have hbounded := h.bounded
      rw [hqueue] at haccepted hbounded
      refine ⟨?_, h.history, ?_⟩
      · rw [List.append_assoc, List.singleton_append, haccepted]
      · rw [List.length_cons] at hbounded
        exact Nat.le_of_succ_le hbounded
  · exact h.frame (State.queueFrame_observerStep hphase hstep)

omit [Fintype Tid] [DecidableEq Tid] in
/-- The destructor sets the flag and waits; what is queued stays queued. -/
theorem State.destructorStep_unchanged {s next : State Dispatcher Observer Tid}
    (hstep : s.destructorStep = some next) :
    next.manager.currentRideState = s.manager.currentRideState ∧
      next.manager.notificationsQueue = s.manager.notificationsQueue ∧
        next.accepted = s.accepted ∧ next.popped = s.popped := by
  obtain ⟨_, _, rfl⟩ | ⟨_, rfl⟩ | ⟨_, rfl⟩ | ⟨_, _, rfl⟩ := State.destructorStep_cases hstep <;>
    exact ⟨rfl, rfl, rfl, rfl⟩

/-- Each step keeps the history. -/
theorem State.RideHistory.step {s next : State Dispatcher Observer Tid} (h : s.RideHistory)
    {action : Action Dispatcher Observer Tid} (hstep : s.step action = some next) :
    next.RideHistory := by
  cases State.move_of_step hstep with
  | changeState hmove => exact h.changeState hmove
  | observerStep hmove => exact h.observerStep hmove
  | destructorStep hmove =>
    obtain ⟨hcurrent, hqueue, haccepted, hpopped⟩ := State.destructorStep_unchanged hmove
    refine ⟨?_, ?_, ?_⟩
    · rw [hpopped, hqueue, haccepted, h.accepted_eq]
    · rw [haccepted, hcurrent]
      exact h.history
    · rw [hqueue]
      exact h.bounded
  | setStop hnext => exact hnext ▸ ⟨h.accepted_eq, h.history, h.bounded⟩
  | run _ _ hnext => exact hnext ▸ ⟨h.accepted_eq, h.history, h.bounded⟩
  | spuriousWake _ hnext => exact hnext ▸ ⟨h.accepted_eq, h.history, h.bounded⟩
  | other _ hframe => exact h.frame hframe.queueFrame

/-- The history of the ride is kept in every reachable state. -/
theorem State.rideHistory_of_reachable {s : State Dispatcher Observer Tid}
    (hreach : (rideMachine Dispatcher Observer Tid).Reachable s) : s.RideHistory := by
  refine transition.Machine.Reachable.invariant ?_ ?_ hreach
  · rintro s ⟨stop, dispatcherOwned, observerOwned, rfl⟩
    exact ⟨rfl, IsHistory.nil _, Nat.zero_le _⟩
  · exact fun s action next hhistory hstep => hhistory.step hstep

/-- The transition for which the call in an action returns true, if there is one. -/
def State.acceptedBy (s : State Dispatcher Observer Tid) :
    Action Dispatcher Observer Tid → List NotificationData
  | .changeState call =>
    if (s.manager.tryChangingState call.nextRideState).1 then
      [⟨s.manager.currentRideState, call.nextRideState⟩]
    else []
  | _ => []

omit [DecidableEq Dispatcher] [DecidableEq Observer] [Fintype Tid] [DecidableEq Tid] in
/-- Only a state change accepts a transition. -/
theorem State.acceptedBy_eq_nil (s : State Dispatcher Observer Tid)
    {action : Action Dispatcher Observer Tid} (hcall : ∀ call, action ≠ .changeState call) :
    s.acceptedBy action = [] := by
  cases action with
  | changeState call => exact absurd rfl (hcall call)
  | _ => rfl

/-- A step accepts the transitions that `acceptedBy` says. -/
theorem State.accepted_step {s next : State Dispatcher Observer Tid}
    {action : Action Dispatcher Observer Tid} (hstep : s.step action = some next) :
    next.accepted = s.accepted ++ s.acceptedBy action := by
  have hother (h : next.accepted = s.accepted) (hcall : ∀ call, action ≠ .changeState call) :
      next.accepted = s.accepted ++ s.acceptedBy action := by
    rw [s.acceptedBy_eq_nil hcall, List.append_nil, h]
  cases State.move_of_step hstep with
  | @changeState call hchange =>
    obtain ⟨_, ⟨haccepts, hnext⟩ | ⟨hrejects, hnext⟩⟩ := State.changeState_cases hchange
    · simp [hnext, State.acceptedBy, RideStateManagerTest.tryChangingState_fst, haccepts]
    · rw [hnext, State.acceptedBy, RideStateManagerTest.tryChangingState_of_not_accepts hrejects]
      simp
  | observerStep hobserver =>
    by_cases hphase : s.observerThread = .acquiring
    · obtain ⟨_, hcases⟩ := State.acquiring_cases hphase hobserver
      obtain ⟨_, _, rfl⟩ | ⟨_, _, rfl⟩ | ⟨notification, rest, _, rfl⟩ := hcases <;>
        exact hother rfl nofun
    · exact hother (State.queueFrame_observerStep hphase hobserver).accepted nofun
  | destructorStep hdestructor =>
    exact hother (State.destructorStep_unchanged hdestructor).2.2.1 nofun
  | setStop hnext | run _ _ hnext | spuriousWake _ hnext => exact hother (hnext ▸ rfl) nofun
  | other hcall hframe => exact hother hframe.accepted hcall

/-- Only the observer thread and an accepted state change touch the ride state
and the queue. -/
theorem State.step_unchanged {s next : State Dispatcher Observer Tid}
    {action : Action Dispatcher Observer Tid} (hstep : s.step action = some next)
    (hobserver : action ≠ .observerStep) (hrejected : s.acceptedBy action = []) :
    next.manager.currentRideState = s.manager.currentRideState ∧
      next.manager.notificationsQueue = s.manager.notificationsQueue := by
  cases State.move_of_step hstep with
  | changeState hmove =>
    obtain ⟨_, ⟨haccepts, _⟩ | ⟨_, rfl⟩⟩ := State.changeState_cases hmove
    · simp [State.acceptedBy, RideStateManagerTest.tryChangingState_fst, haccepts] at hrejected
    · exact ⟨rfl, rfl⟩
  | observerStep => exact absurd rfl hobserver
  | destructorStep hmove =>
    obtain ⟨hcurrent, hqueue, _, _⟩ := State.destructorStep_unchanged hmove
    exact ⟨hcurrent, hqueue⟩
  | setStop hnext | run _ _ hnext | spuriousWake _ hnext => exact hnext ▸ ⟨rfl, rfl⟩
  | other _ hframe => exact ⟨hframe.currentRideState, hframe.notificationsQueue⟩

/-- In every reachable state, what was popped and what is queued are together the accepted
transitions in order; these lead from `idle` to the current state; and a rejected call changes
nothing. -/
theorem State.rideHistory_invariant {s : State Dispatcher Observer Tid}
    (hreach : (rideMachine Dispatcher Observer Tid).Reachable s) :
    s.popped ++ s.manager.notificationsQueue = s.accepted ∧
    IsHistory .idle s.accepted s.manager.currentRideState ∧
    s.manager.notificationsQueue.length ≤ 1024 ∧
    ∀ action next, s.step action = some next →
      next.accepted = s.accepted ++ s.acceptedBy action ∧
      (action ≠ .observerStep → s.acceptedBy action = [] →
        next.manager.currentRideState = s.manager.currentRideState ∧
          next.manager.notificationsQueue = s.manager.notificationsQueue) := by
  have h := State.rideHistory_of_reachable hreach
  refine ⟨h.accepted_eq, h.history, h.bounded, fun action next hstep => ?_⟩
  exact ⟨State.accepted_step hstep, State.step_unchanged hstep⟩

/-- A ride requested and boarded, of which the observer thread has popped the
first transition. -/
theorem rideHistory_invariant_after_pop :
    ∃ s : State Unit Unit Unit, (rideMachine Unit Unit Unit).Reachable s ∧
      s.manager.currentRideState = .passengerBoarding ∧ s.popped = [⟨.idle, .requested⟩] ∧
      s.popped ++ s.manager.notificationsQueue = s.accepted := by
  obtain ⟨s, hreach, hcheck⟩ := transition.Machine.exists_reachable_of_run
    (M := rideMachine Unit Unit Unit) (s := {}) ⟨false, _, _, rfl⟩
    [.run, .changeState .requestRide, .changeState .startBoarding, .observerStep, .observerStep]
    (fun s => s.manager.currentRideState = .passengerBoarding ∧ s.popped = [⟨.idle, .requested⟩])
    (by decide)
  obtain ⟨hcurrent, hpopped⟩ := of_decide_eq_true hcheck
  exact ⟨s, hreach, hcurrent, hpopped, (State.rideHistory_invariant hreach).1⟩

end spdlogger.ride_state_manager
