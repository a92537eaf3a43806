import Spdlogger.RideStateManager.Dispatch

namespace spdlogger.ride_state_manager

variable {Dispatcher Observer Tid : Type} [DecidableEq Dispatcher] [DecidableEq Observer]
  [Fintype Tid] [DecidableEq Tid]

omit [DecidableEq Tid] in
/-- The observer thread's loop does not end the thread. -/
theorem State.snapshotStep_ne_exited (s : State Dispatcher Observer Tid)
    (notification : NotificationData) (healthyObservers : List (Dispatcher × Observer))
    (index : Nat) (scan : Scan Dispatcher Observer) :
    (s.snapshotStep notification healthyObservers index scan).observerThread ≠ .exited := by
  have hmove := s.snapshotMove notification healthyObservers index scan
  generalize s.snapshotStep notification healthyObservers index scan = next at hmove
  cases hmove <;> simp

omit [DecidableEq Tid] in
/-- The two exits of the observer thread: the stop flag, whatever is queued, and
the shutdown of an empty queue. -/
theorem State.exited_of_observerStep {s next : State Dispatcher Observer Tid}
    (hstep : s.observerStep = some next) (hexited : next.observerThread = .exited) :
    s.observerThread = .testingStop ∧ s.stop = true ∧
        next.manager.notificationsQueue = s.manager.notificationsQueue ∨
      next.manager.notificationsQueue = [] := by
  cases State.observerMove_of_step hstep with
  | stop hphase hstop => exact .inl ⟨hphase, hstop, rfl⟩
  | leave _ _ _ hqueue => exact .inr hqueue
  | scan notification healthyObservers index scan =>
    exact absurd hexited (s.snapshotStep_ne_exited notification healthyObservers index scan)
  | goOn | sleep | pop | lock | dispatch | finish | resume => cases hexited

omit [DecidableEq Tid] in
/-- A step of the observer thread leaves the destructor alone. -/
theorem State.destructor_observerStep {s next : State Dispatcher Observer Tid}
    (hstep : s.observerStep = some next) : next.destructor = s.destructor := by
  cases State.observerMove_of_step hstep with
  | scan notification healthyObservers index scan =>
    exact (s.queueFrame_snapshotStep notification healthyObservers index scan).destructor
  | stop | goOn | sleep | leave | pop | lock | dispatch | finish | resume => rfl

/-- The destructor is through only when the thread has exited or never was. -/
def State.Joined (s : State Dispatcher Observer Tid) : Prop :=
  s.destructor = .destroyed → s.observerThread = .exited ∨ s.observerThread = .notStarted

/-- Each step keeps the thread exited behind the destructor. -/
theorem State.Joined.step {s next : State Dispatcher Observer Tid} (h : s.Joined)
    {action : Action Dispatcher Observer Tid} (hstep : s.step action = some next) :
    next.Joined := by
  intro hdestroyed
  cases State.move_of_step hstep with
  | setStop hnext =>
    subst hnext
    exact h hdestroyed
  | run _ halive hnext =>
    subst hnext
    cases halive.symm.trans hdestroyed
  | spuriousWake hphase hnext =>
    subst hnext
    rcases h hdestroyed with hexited | hnotStarted
    · cases hphase.symm.trans hexited
    · cases hphase.symm.trans hnotStarted
  | changeState hmove =>
    obtain ⟨_, ⟨_, rfl⟩ | ⟨_, rfl⟩⟩ := State.changeState_cases hmove
    · simpa only [ObserverPhase.notified_eq_exited, ObserverPhase.notified_eq_notStarted] using
        h hdestroyed
    · exact h hdestroyed
  | observerStep hmove =>
    rcases h ((State.destructor_observerStep hmove).symm.trans hdestroyed) with hphase | hphase <;>
      simp [State.observerStep, hphase] at hmove
  | destructorStep hmove =>
    obtain ⟨_, _, rfl⟩ | ⟨_, rfl⟩ | ⟨_, rfl⟩ | ⟨_, hexited, rfl⟩ := State.destructorStep_cases hmove
    · cases hdestroyed
    · cases hdestroyed
    · by_cases hphase : s.observerThread = .notStarted
      · exact .inr hphase
      · simp [hphase] at hdestroyed
    · exact .inl hexited
  | other _ hframe =>
    rw [hframe.observerThread]
    exact h (hframe.destructor ▸ hdestroyed)

/-- Behind the destructor the observer thread has exited, in every reachable state. -/
theorem State.joined_of_reachable {s : State Dispatcher Observer Tid}
    (hreach : (rideMachine Dispatcher Observer Tid).Reachable s) : s.Joined := by
  refine transition.Machine.Reachable.invariant ?_ ?_ hreach
  · rintro s ⟨stop, dispatcherOwned, observerOwned, rfl⟩
    nofun
  · exact fun s action next hjoined hstep => hjoined.step hstep

end spdlogger.ride_state_manager
