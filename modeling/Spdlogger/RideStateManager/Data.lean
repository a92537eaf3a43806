import Mathlib.Data.List.Chain

namespace spdlogger.ride_state_manager

/-- The states of a ride. -/
inductive RideState where
  | idle
  | requested
  | passengerBoarding
  | inProgress
  | completed
  deriving DecidableEq, Repr

/-- What the observers are told of a transition. -/
structure NotificationData where
  previousState : RideState
  currentState : RideState
  deriving DecidableEq, Repr

/-- `ObserverData`. Its two weak pointers are given by the objects they refer to;
whether they can be locked is a matter of the state. -/
structure ObserverData (Dispatcher Observer : Type) where
  dispatcher : Dispatcher
  observer : Observer
  deriving DecidableEq

/-- The five public state changes. -/
inductive StateChange where
  | resetToIdle
  | requestRide
  | startBoarding
  | startRide
  | completeRide
  deriving DecidableEq, Repr

/-- The state that the call asks for. -/
def StateChange.nextRideState : StateChange → RideState
  | .resetToIdle => .idle
  | .requestRide => .requested
  | .startBoarding => .passengerBoarding
  | .startRide => .inProgress
  | .completeRide => .completed

/-- Each state follows the one before it, and any but `idle` may be reset to `idle`. -/
def isValidTransition (current next : RideState) : Bool :=
  match next with
  | .idle => current ≠ .idle
  | .requested => current = .idle
  | .passengerBoarding => current = .requested
  | .inProgress => current = .passengerBoarding
  | .completed => current = .inProgress

/-- The queue takes no more notifications than this. -/
def k_maxPendingNotifications : Nat := 1024

/-- The members of `RideStateManagerTest` that its mutexes guard. -/
structure RideStateManagerTest (Dispatcher Observer : Type) where
  currentRideState : RideState := .idle
  observers : List (ObserverData Dispatcher Observer) := []
  notificationsQueue : List NotificationData := []
  isShuttingDown : Bool := false

variable {Dispatcher Observer : Type}

/-- The critical section of `tryChangingState`, with the value it returns. -/
def RideStateManagerTest.tryChangingState (manager : RideStateManagerTest Dispatcher Observer)
    (nextRideState : RideState) : Bool × RideStateManagerTest Dispatcher Observer :=
  if !isValidTransition manager.currentRideState nextRideState ||
      manager.notificationsQueue.length ≥ k_maxPendingNotifications || manager.isShuttingDown then
    (false, manager)
  else
    (true, { manager with
      currentRideState := nextRideState
      notificationsQueue :=
        manager.notificationsQueue ++ [⟨manager.currentRideState, nextRideState⟩] })

/-- A state change is accepted for all three of these reasons, and rejected for
want of any one of them. -/
structure RideStateManagerTest.Accepts (manager : RideStateManagerTest Dispatcher Observer)
    (nextRideState : RideState) : Prop where
  valid : isValidTransition manager.currentRideState nextRideState
  room : manager.notificationsQueue.length < k_maxPendingNotifications
  live : manager.isShuttingDown = false

/-- An accepted transition is queued and changes the state. -/
theorem RideStateManagerTest.tryChangingState_of_accepts
    {manager : RideStateManagerTest Dispatcher Observer} {nextRideState : RideState}
    (h : manager.Accepts nextRideState) : manager.tryChangingState nextRideState =
      (true, { manager with
        currentRideState := nextRideState
        notificationsQueue :=
          manager.notificationsQueue ++ [⟨manager.currentRideState, nextRideState⟩] }) := by
  unfold tryChangingState
  rw [if_neg]
  simp [h.valid, h.live, h.room]

/-- A transition that is not accepted changes nothing. -/
theorem RideStateManagerTest.tryChangingState_of_not_accepts
    {manager : RideStateManagerTest Dispatcher Observer} {nextRideState : RideState}
    (h : ¬ manager.Accepts nextRideState) :
    manager.tryChangingState nextRideState = (false, manager) := by
  unfold tryChangingState
  rw [if_pos]
  by_contra hpass
  simp only [Bool.or_eq_true, Bool.not_eq_true', decide_eq_true_eq, not_or, Bool.not_eq_false,
    Bool.not_eq_true, ge_iff_le, not_le] at hpass
  exact h ⟨hpass.1.1, hpass.1.2, hpass.2⟩

/-- The result says whether the transition was accepted. -/
theorem RideStateManagerTest.tryChangingState_fst
    (manager : RideStateManagerTest Dispatcher Observer) (nextRideState : RideState) :
    (manager.tryChangingState nextRideState).1 = true ↔ manager.Accepts nextRideState := by
  by_cases h : manager.Accepts nextRideState
  · simp [tryChangingState_of_accepts h, h]
  · simp [tryChangingState_of_not_accepts h, h]

/-- A list of transitions that takes the ride from one state to another, each
starting where the one before it ended. -/
structure IsHistory (start : RideState) (transitions : List NotificationData) (current : RideState) :
    Prop where
  first : ∀ notification ∈ transitions.head?, notification.previousState = start
  linked : transitions.IsChain fun earlier later => later.previousState = earlier.currentState
  valid : ∀ notification ∈ transitions,
    isValidTransition notification.previousState notification.currentState
  current_eq : current = (transitions.getLast?.map NotificationData.currentState).getD start

theorem IsHistory.nil (start : RideState) : IsHistory start [] start :=
  ⟨nofun, List.IsChain.nil, nofun, rfl⟩

/-- A valid transition from the current state extends the history. -/
theorem IsHistory.append {start current next : RideState} {transitions : List NotificationData}
    (h : IsHistory start transitions current) (hvalid : isValidTransition current next) :
    IsHistory start (transitions ++ [⟨current, next⟩]) next := by
  refine ⟨?_, ?_, ?_, by simp⟩
  · intro notification hhead
    cases transitions with
    | nil =>
      have hcurrent := h.current_eq
      simp only [List.nil_append, List.head?_cons, Option.mem_some_iff] at hhead
      rw [← hhead]
      simpa using hcurrent
    | cons earlier rest => exact h.first notification (by simpa using hhead)
  · rw [List.isChain_append]
    refine ⟨h.linked, List.IsChain.singleton _, ?_⟩
    intro earlier hearlier later hlater
    simp only [List.head?_cons, Option.mem_some_iff] at hlater
    have hcurrent := h.current_eq
    rw [Option.mem_def] at hearlier
    rw [← hlater, hcurrent, hearlier]
    rfl
  · intro notification hnotification
    rcases List.mem_append.mp hnotification with hearlier | hlast
    · exact h.valid notification hearlier
    · rw [List.mem_singleton.mp hlast]
      exact hvalid

end spdlogger.ride_state_manager
