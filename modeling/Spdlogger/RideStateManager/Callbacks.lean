import Spdlogger.RideStateManager.Step

namespace spdlogger.ride_state_manager

/-- What a call of `dispatch` may throw. -/
inductive Thrown where
  | exception (what : String)
  | unknown
  deriving DecidableEq

/-- What the handlers around `dispatch` write to `stderr`. -/
def Thrown.report : Thrown → String
  | .exception what => "Observer callback threw exception : " ++ what ++ "\n"
  | .unknown => "Observer callback threw unknown exception\n"

/-- The manager together with what its handlers have written. -/
structure Callbacks (Dispatcher Observer Tid : Type) where
  ride : State Dispatcher Observer Tid
  stderr : List String := []

variable {Dispatcher Observer Tid : Type} [DecidableEq Dispatcher] [DecidableEq Observer]
  [Fintype Tid] [DecidableEq Tid]

/-- The end of the `try` block around `dispatch`. Both handlers fall through to
the next iteration of the loop. -/
def Callbacks.endDispatch (self : Callbacks Dispatcher Observer Tid)
    (notification : NotificationData) (healthyObservers : List (Dispatcher × Observer))
    (index : Nat) (outcome : Except Thrown Unit) : Callbacks Dispatcher Observer Tid :=
  let ride := { self.ride with
    observerThread := .dispatching notification healthyObservers (index + 1) }
  match outcome with
  | .ok () => { self with ride }
  | .error thrown => { ride, stderr := self.stderr ++ [thrown.report] }

/-- A step comes with what `dispatch` does if a call of it ends there. -/
def Callbacks.step (self : Callbacks Dispatcher Observer Tid) :
    Action Dispatcher Observer Tid × Except Thrown Unit →
      Option (Callbacks Dispatcher Observer Tid)
  | (.observerStep, outcome) =>
    match self.ride.observerThread with
    | .inDispatch notification healthyObservers index =>
      some (self.endDispatch notification healthyObservers index outcome)
    | _ => self.ride.observerStep.map fun ride => { self with ride }
  | (action, _) => (self.ride.step action).map fun ride => { self with ride }

/-- The manager with its handlers, from its construction on. -/
def callbackMachine (Dispatcher Observer Tid : Type) [DecidableEq Dispatcher]
    [DecidableEq Observer] [Fintype Tid] [DecidableEq Tid] :
    transition.Machine (Callbacks Dispatcher Observer Tid)
      (Action Dispatcher Observer Tid × Except Thrown Unit) where
  init self := (rideMachine Dispatcher Observer Tid).init self.ride ∧ self.stderr = []
  step := Callbacks.step

/-- Whatever the calls of `dispatch` throw, the manager goes through the steps it goes through
when they return. -/
theorem callbackMachine_extends :
    (callbackMachine Dispatcher Observer Tid).Extends (rideMachine Dispatcher Observer Tid)
      Callbacks.ride Prod.fst := by
  refine ⟨fun self hinit => hinit.1, ?_⟩
  rintro self ⟨action, outcome⟩
  cases action with
  | observerStep =>
    cases hphase : self.ride.observerThread with
    | inDispatch notification healthyObservers index =>
      have hride : (self.endDispatch notification healthyObservers index outcome).ride =
          { self.ride with
            observerThread := .dispatching notification healthyObservers (index + 1) } := by
        cases outcome <;> rfl
      simp only [callbackMachine, Callbacks.step, hphase, Option.map_some, hride, rideMachine,
        State.step, State.observerStep]
    | _ =>
      simp only [callbackMachine, Callbacks.step, hphase, Option.map_map, Function.comp_def,
        Option.map_id']
      rfl
  | _ =>
    simp only [callbackMachine, Callbacks.step, Option.map_map, Function.comp_def, Option.map_id']
    rfl

end spdlogger.ride_state_manager
