import Spdlogger.RideStateManager.Atomicity

namespace spdlogger.ride_state_manager

variable {Dispatcher Observer Tid : Type} [DecidableEq Dispatcher] [DecidableEq Observer]
  [Fintype Tid] [DecidableEq Tid]

theorem ObserverPhase.notified_ne_blocked {Dispatcher Observer : Type}
    (phase : ObserverPhase Dispatcher Observer) : phase.notified ≠ .blocked := by
  cases phase <;> simp [ObserverPhase.notified]

/-- The observer thread sleeps on an empty queue only, and through the shutdown only as
long as the destructor has yet to notify it. -/
structure State.SleepsIdle (s : State Dispatcher Observer Tid) : Prop where
  queue : s.observerThread = .blocked → s.manager.notificationsQueue = []
  live : s.observerThread = .blocked → s.manager.isShuttingDown = true → s.destructor = .notifying
  shutting : s.destructor ≠ .alive → s.manager.isShuttingDown = true

omit [DecidableEq Dispatcher] [DecidableEq Observer] [Fintype Tid] [DecidableEq Tid] in
/-- A thread that is awake sleeps on nothing. -/
theorem State.SleepsIdle.of_awake {s : State Dispatcher Observer Tid}
    (hawake : s.observerThread ≠ .blocked)
    (hshutting : s.destructor ≠ .alive → s.manager.isShuttingDown = true) : s.SleepsIdle :=
  ⟨fun hblocked => absurd hblocked hawake, fun hblocked => absurd hblocked hawake, hshutting⟩

omit [DecidableEq Tid] in
/-- A step of the observer thread goes to sleep on an empty queue only. -/
theorem State.SleepsIdle.observerStep {s next : State Dispatcher Observer Tid} (h : s.SleepsIdle)
    (hstep : s.observerStep = some next) : next.SleepsIdle := by
  by_cases hphase : s.observerThread = .acquiring
  · obtain ⟨_, ⟨hlive, hqueue, rfl⟩ | ⟨_, _, rfl⟩ | ⟨notification, rest, _, rfl⟩⟩ :=
      State.acquiring_cases hphase hstep
    · exact ⟨fun _ => hqueue, fun _ hshutting => absurd hshutting (by simp [hlive]), h.shutting⟩
    · exact .of_awake (by simp) h.shutting
    · exact .of_awake (by simp) h.shutting
  · have hframe := State.queueFrame_observerStep hphase hstep
    refine .of_awake (State.observerStep_ne_blocked hphase hstep) ?_
    rw [hframe.destructor, hframe.isShuttingDown]
    exact h.shutting

omit [Fintype Tid] [DecidableEq Tid] in
/-- A step of the destructor keeps this so. -/
theorem State.SleepsIdle.destructorStep {s next : State Dispatcher Observer Tid} (h : s.SleepsIdle)
    (hstep : s.destructorStep = some next) : next.SleepsIdle := by
  obtain ⟨_, _, rfl⟩ | ⟨hphase, rfl⟩ | ⟨hphase, rfl⟩ | ⟨hphase, hexited, rfl⟩ :=
    State.destructorStep_cases hstep
  · exact ⟨h.queue, fun _ _ => rfl, fun _ => rfl⟩
  · have hshutting := h.shutting (by simp [hphase])
    exact .of_awake s.observerThread.notified_ne_blocked fun _ => hshutting
  · have hshutting := h.shutting (by simp [hphase])
    refine .of_awake (fun hblocked => ?_) fun _ => hshutting
    simpa [hphase] using h.live hblocked hshutting
  · have hshutting := h.shutting (by simp [hphase])
    exact .of_awake (by simp [hexited]) fun _ => hshutting

/-- Each step keeps this so. -/
theorem State.SleepsIdle.step {s next : State Dispatcher Observer Tid} (h : s.SleepsIdle)
    {action : Action Dispatcher Observer Tid} (hstep : s.step action = some next) :
    next.SleepsIdle := by
  cases State.move_of_step hstep with
  | setStop hnext => exact hnext ▸ ⟨h.queue, h.live, h.shutting⟩
  | run _ _ hnext | spuriousWake _ hnext =>
    rw [hnext]
    exact .of_awake (by simp) h.shutting
  | changeState hstep =>
    obtain ⟨_, ⟨haccepts, rfl⟩ | ⟨_, rfl⟩⟩ := State.changeState_cases hstep
    · exact .of_awake s.observerThread.notified_ne_blocked h.shutting
    · exact h
  | observerStep hstep => exact h.observerStep hstep
  | destructorStep hstep => exact h.destructorStep hstep
  | other _ hframe =>
    constructor
    · rw [hframe.observerThread, hframe.notificationsQueue]
      exact h.queue
    · rw [hframe.observerThread, hframe.isShuttingDown, hframe.destructor]
      exact h.live
    · rw [hframe.destructor, hframe.isShuttingDown]
      exact h.shutting

/-- The observer thread sleeps on an empty queue only, in every reachable state. -/
theorem State.sleepsIdle_of_reachable {s : State Dispatcher Observer Tid}
    (hreach : (rideMachine Dispatcher Observer Tid).Reachable s) : s.SleepsIdle := by
  refine transition.Machine.Reachable.invariant (I := State.SleepsIdle) ?_ ?_ hreach
  · rintro s ⟨stop, dispatcherOwned, observerOwned, rfl⟩
    exact .of_awake (by simp) fun halive => absurd rfl halive
  · exact fun s action next h hstep => h.step hstep

/-- Whatever the observer thread sleeps on, somebody inside the mutex or behind it is
about to notify it. -/
structure Interleaved.SleepsIdle (s : Interleaved Dispatcher Observer Tid) : Prop where
  queue : s.ride.observerThread = .blocked → s.ride.manager.notificationsQueue = [] ∨
    s.inside = some .notifying
  live : s.ride.observerThread = .blocked → s.ride.manager.isShuttingDown = true →
    s.ride.destructor = .notifying ∨ s.inside = some .flagSet

/-- The same with the sections taken apart. -/
theorem Interleaved.sleepsIdle_of_reachable {s : Interleaved Dispatcher Observer Tid}
    (hreach : (interleavedMachine Dispatcher Observer Tid).Reachable s) : s.SleepsIdle := by
  have hatomic := State.sleepsIdle_of_reachable (Interleaved.committed_reachable hreach)
  cases hinside : s.inside with
  | none =>
    simp only [Interleaved.committed, hinside] at hatomic
    exact ⟨fun hblocked => .inl (hatomic.queue hblocked),
      fun hblocked hshutting => .inl (hatomic.live hblocked hshutting)⟩
  | some phase =>
    obtain ⟨_, hfits⟩ := Interleaved.sound hreach phase hinside
    cases phase with
    | testingChange | returning | testingPredicate | checking | settingFlag =>
      simp only [Interleaved.committed, hinside] at hatomic
      exact ⟨fun hblocked => .inl (hatomic.queue hblocked),
        fun hblocked hshutting => .inl (hatomic.live hblocked hshutting)⟩
    | notifying =>
      have hlive : s.ride.manager.isShuttingDown = false := hfits
      exact ⟨fun _ => .inr hinside, fun _ hshutting => absurd hshutting (by simp [hlive])⟩
    | unlocking phase =>
      have hawake : s.ride.observerThread ≠ .blocked := by simp [hfits.1]
      exact ⟨fun hblocked => absurd hblocked hawake, fun hblocked => absurd hblocked hawake⟩
    | flagSet =>
      simp only [Interleaved.committed, hinside] at hatomic
      exact ⟨fun hblocked => .inl (hatomic.queue hblocked), fun _ _ => .inr hinside⟩

/-- The destructor has notified the observer thread, which does not go to sleep again. -/
theorem Interleaved.awake_of_joining {s : Interleaved Dispatcher Observer Tid}
    (hreach : (interleavedMachine Dispatcher Observer Tid).Reachable s)
    (hjoins : s.ride.destructor = .testingJoinable ∨ s.ride.destructor = .joining) :
    s.ride.observerThread ≠ .blocked := by
  intro hblocked
  have hatomic := State.sleepsIdle_of_reachable (Interleaved.committed_reachable hreach)
  have hnot : s.inside ≠ some .flagSet := by
    intro hinside
    have halive : s.ride.destructor = .alive := (Interleaved.sound hreach _ hinside).2
    rcases hjoins with hjoins | hjoins <;> simp [halive] at hjoins
  have hshutting : s.ride.manager.isShuttingDown = true := by
    have hended : s.ride.destructor ≠ .alive := by
      rcases hjoins with hjoins | hjoins <;> simp [hjoins]
    unfold Interleaved.committed at hatomic
    split at hatomic
    · exact hatomic.shutting hended
    · exact hatomic.shutting hended
    · exact absurd ‹_› hnot
    · exact hatomic.shutting hended
  have hlive := (Interleaved.sleepsIdle_of_reachable hreach).live hblocked hshutting
  rcases hjoins with hjoins | hjoins <;> simp [hjoins, hnot] at hlive

/-- With `notificationsMutex_` free, the observer thread is blocked and not notified only on an
empty queue, and with the flag set only as long as the destructor has yet to notify it. -/
theorem Interleaved.idle_of_blocked {s : Interleaved Dispatcher Observer Tid}
    (hreach : (interleavedMachine Dispatcher Observer Tid).Reachable s)
    (hfree : s.NotificationsMutexFree) (hblocked : s.ride.observerThread = .blocked) :
    s.ride.manager.notificationsQueue = [] ∧
      (s.ride.manager.isShuttingDown = true → s.ride.destructor = .notifying) := by
  obtain ⟨_, hinside⟩ := hfree
  have hidle := Interleaved.sleepsIdle_of_reachable hreach
  refine ⟨?_, fun hshutting => ?_⟩
  · simpa [hinside] using hidle.queue hblocked
  · simpa [hinside] using hidle.live hblocked hshutting

/-- The observer thread goes to sleep, and the destructor sets the flag. -/
def flaggedSleep : List (InterleavedAction Unit Unit Unit) :=
  [.ride .run, .ride .observerStep, .wait, .proceed, .destroy, .proceed, .proceed]

/-- The observer thread still sleeps when the destructor has set its flag. -/
theorem idle_of_blocked_flaggedSleep :
    ∃ s, (interleavedMachine Unit Unit Unit).Reachable s ∧ s.NotificationsMutexFree ∧
      s.ride.observerThread = .blocked ∧ s.ride.manager.isShuttingDown = true ∧
        (s.ride.manager.notificationsQueue = [] ∧
          (s.ride.manager.isShuttingDown = true → s.ride.destructor = .notifying)) := by
  obtain ⟨s, hreach, hcheck⟩ := transition.Machine.exists_reachable_of_run
    (M := interleavedMachine Unit Unit Unit) (s := {}) ⟨⟨false, _, _, rfl⟩, rfl⟩ flaggedSleep
    (fun s => s.ride.notificationsMutex = none ∧ s.inside.isNone ∧
      s.ride.observerThread = .blocked ∧ s.ride.manager.isShuttingDown = true) (by decide)
  obtain ⟨hmutex, hinside, hblocked, hshutting⟩ := of_decide_eq_true hcheck
  have hfree : s.NotificationsMutexFree := ⟨hmutex, Option.isNone_iff_eq_none.mp hinside⟩
  exact ⟨s, hreach, hfree, hblocked, hshutting, Interleaved.idle_of_blocked hreach hfree hblocked⟩

/-- Under the mutex, between a push and its notification, the thread does sleep on work. -/
theorem exists_blocked_on_work :
    ∃ s, (interleavedMachine Unit Unit Unit).Reachable s ∧ s.ride.observerThread = .blocked ∧
      s.ride.manager.notificationsQueue = [⟨.idle, .requested⟩] := by
  obtain ⟨s, hreach, hcheck⟩ := transition.Machine.exists_reachable_of_run
    (M := interleavedMachine Unit Unit Unit) (s := {}) ⟨⟨false, _, _, rfl⟩, rfl⟩
    [.ride .run, .ride .observerStep, .wait, .proceed, .changeState .requestRide, .proceed]
    (fun s => s.ride.observerThread = .blocked ∧
      s.ride.manager.notificationsQueue = [⟨.idle, .requested⟩]) (by decide)
  exact ⟨s, hreach, of_decide_eq_true hcheck⟩

end spdlogger.ride_state_manager
