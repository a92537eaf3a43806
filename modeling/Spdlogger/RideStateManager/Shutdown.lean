import Spdlogger.RideStateManager.Exit

namespace spdlogger.ride_state_manager

variable {Dispatcher Observer Tid : Type} [DecidableEq Dispatcher] [DecidableEq Observer]
  [Fintype Tid] [DecidableEq Tid]

/-- The steps that leave nothing behind: the observer thread does not heed the
stop flag while notifications are queued, and no transition is accepted once
the thread has exited. -/
def State.KeepsDraining (s : State Dispatcher Observer Tid) :
    Action Dispatcher Observer Tid → Prop
  | .observerStep => s.observerThread = .testingStop → s.stop = true →
      s.manager.notificationsQueue = []
  | .changeState call => s.observerThread = .exited → ¬ s.manager.Accepts call.nextRideState
  | _ => True

/-- Nothing is queued, every accepted transition has its snapshot, and every
observer of a snapshot has had its dispatch call. -/
structure State.Drained (s : State Dispatcher Observer Tid) : Prop where
  queue_eq : s.manager.notificationsQueue = []
  snapshots_eq : s.snapshots.map Prod.fst = s.accepted
  dispatched_eq : s.dispatched = dispatchesOf s.snapshots

/-- Notifications are left and the thread to pop them is gone. -/
def State.Stranded (s : State Dispatcher Observer Tid) : Prop :=
  s.observerThread = .exited ∧ s.manager.notificationsQueue ≠ []

/-- An exited thread takes no step, so the queue can only grow. -/
theorem State.Stranded.step {s next : State Dispatcher Observer Tid} (h : s.Stranded)
    {action : Action Dispatcher Observer Tid} (hstep : s.step action = some next) :
    next.Stranded := by
  obtain ⟨hexited, hqueue⟩ := h
  cases State.move_of_step hstep with
  | setStop hnext => exact hnext ▸ ⟨hexited, hqueue⟩
  | run hphase => cases hexited.symm.trans hphase
  | spuriousWake hphase => cases hexited.symm.trans hphase
  | changeState hmove =>
    obtain ⟨_, ⟨_, rfl⟩ | ⟨_, rfl⟩⟩ := State.changeState_cases hmove
    · exact ⟨ObserverPhase.notified_eq_exited.mpr hexited, by simp⟩
    · exact ⟨hexited, hqueue⟩
  | observerStep hmove => simp [State.observerStep, hexited] at hmove
  | destructorStep hmove =>
    obtain ⟨_, _, rfl⟩ | ⟨_, rfl⟩ | ⟨_, rfl⟩ | ⟨_, _, rfl⟩ := State.destructorStep_cases hmove
    · exact ⟨hexited, hqueue⟩
    · exact ⟨ObserverPhase.notified_eq_exited.mpr hexited, hqueue⟩
    · exact ⟨hexited, hqueue⟩
    · exact ⟨hexited, hqueue⟩
  | other _ hframe =>
    exact ⟨hframe.observerThread.trans hexited, hframe.notificationsQueue ▸ hqueue⟩

/-- A step that breaks the condition strands what it leaves or adds. -/
theorem State.stranded_of_not_keepsDraining {s next : State Dispatcher Observer Tid}
    {action : Action Dispatcher Observer Tid} (hbreaks : ¬ s.KeepsDraining action)
    (hstep : s.step action = some next) : next.Stranded := by
  cases action with
  | observerStep =>
    simp only [State.KeepsDraining, Classical.not_imp] at hbreaks
    obtain ⟨hphase, hstop, hqueue⟩ := hbreaks
    simp only [State.step, State.observerStep, hphase, hstop, if_true, Option.some.injEq] at hstep
    subst hstep
    exact ⟨rfl, hqueue⟩
  | changeState call =>
    simp only [State.KeepsDraining, Classical.not_imp, not_not] at hbreaks
    obtain ⟨hexited, haccepts⟩ := hbreaks
    obtain ⟨_, ⟨_, rfl⟩ | ⟨hrejects, _⟩⟩ := State.changeState_cases hstep
    · exact ⟨ObserverPhase.notified_eq_exited.mpr hexited, by simp⟩
    · exact absurd haccepts hrejects
  | _ => exact absurd trivial hbreaks

/-- In a run that keeps to the condition, the observer thread exits with the
queue empty, and it stays empty. -/
def State.ExitsDrained (s : State Dispatcher Observer Tid) : Prop :=
  s.observerThread = .exited → s.manager.notificationsQueue = []

/-- A step that keeps to the condition leaves nothing behind an exited thread. -/
theorem State.ExitsDrained.step {s next : State Dispatcher Observer Tid} (h : s.ExitsDrained)
    {action : Action Dispatcher Observer Tid} (hkeeps : s.KeepsDraining action)
    (hstep : s.step action = some next) : next.ExitsDrained := by
  intro hexited
  cases State.move_of_step hstep with
  | setStop hnext =>
    subst hnext
    exact h hexited
  | run _ _ hnext =>
    subst hnext
    cases hexited
  | spuriousWake _ hnext =>
    subst hnext
    cases hexited
  | changeState hmove =>
    obtain ⟨_, ⟨haccepts, rfl⟩ | ⟨_, rfl⟩⟩ := State.changeState_cases hmove
    · have hearlier := ObserverPhase.notified_eq_exited.mp hexited
      exact absurd haccepts (hkeeps hearlier)
    · exact h hexited
  | observerStep hmove =>
    rcases State.exited_of_observerStep hmove hexited with ⟨hphase, hstop, hqueue⟩ | hempty
    · rw [hqueue]
      exact hkeeps hphase hstop
    · exact hempty
  | destructorStep hmove =>
    obtain ⟨_, _, rfl⟩ | ⟨_, rfl⟩ | ⟨_, rfl⟩ | ⟨_, _, rfl⟩ := State.destructorStep_cases hmove
    · exact h hexited
    · exact h (ObserverPhase.notified_eq_exited.mp hexited)
    · exact h hexited
    · exact h hexited
  | other _ hframe =>
    rw [hframe.notificationsQueue]
    exact h (hframe.observerThread ▸ hexited)

/-- In a run that keeps to the condition, an exited thread has left nothing behind. -/
theorem State.exitsDrained_of_reachableBy {s : State Dispatcher Observer Tid}
    (hreach : (rideMachine Dispatcher Observer Tid).ReachableBy State.KeepsDraining s) :
    s.ExitsDrained := by
  refine transition.Machine.ReachableBy.invariant ?_ ?_ hreach
  · rintro s ⟨stop, dispatcherOwned, observerOwned, rfl⟩
    nofun
  · exact fun s action next _ hdrained hkeeps hstep => hdrained.step hkeeps hstep

/-- In a run that ends with the destructor through with an observer thread, everything accepted
has been popped and dispatched exactly if every step of the run kept to the condition. -/
theorem State.drained_iff {start s : State Dispatcher Observer Tid}
    {schedule : List (Action Dispatcher Observer Tid)}
    (hstart : (rideMachine Dispatcher Observer Tid).init start)
    (hrun : (rideMachine Dispatcher Observer Tid).run start schedule = some s)
    (hdestroyed : s.destructor = .destroyed) (hstarted : s.observerThread ≠ .notStarted) :
    s.Drained ↔
      (rideMachine Dispatcher Observer Tid).RunsBy State.KeepsDraining start schedule := by
  have hinit : (rideMachine Dispatcher Observer Tid).Reachable start := .init hstart
  have hreach := hinit.run hrun
  have hexited := ((State.joined_of_reachable hreach) hdestroyed).resolve_right hstarted
  constructor
  · intro hdrained
    have hstays : ∀ s a next, (rideMachine Dispatcher Observer Tid).Reachable s → s.Stranded →
        (rideMachine Dispatcher Observer Tid).step s a = some next → next.Stranded :=
      fun s a next _ hstranded hstep => hstranded.step hstep
    have hruns := transition.Machine.Reachable.runsBy_or
      (fun s a next _ => State.stranded_of_not_keepsDraining) hstays hinit hrun
    exact hruns.resolve_right fun hstranded => hstranded.2 hdrained.queue_eq
  · intro hkeeps
    have hpermitted := transition.Machine.ReachableBy.runsBy (.init hstart) hkeeps hrun
    have hqueue := State.exitsDrained_of_reachableBy hpermitted hexited
    have haccepted := (State.rideHistory_of_reachable hreach).accepted_eq
    have hoffers := State.offers_of_reachable hreach
    simp only [State.Offers, hexited] at hoffers
    rw [hqueue, List.append_nil] at haccepted
    exact ⟨hqueue, hoffers.1.trans haccepted, hoffers.2⟩

/-- A ride requested and delivered before the manager goes away. -/
def deliveredRide : List (Action Unit Unit Unit) :=
  [.run, .changeState .requestRide, .observerStep, .observerStep, .observerStep, .observerStep,
    .observerStep, .observerStep, .destructorStep, .destructorStep, .observerStep,
    .destructorStep, .destructorStep]

/-- A run in which the one transition is delivered before the destructor is through. -/
theorem drained_iff_after_delivery :
    ∃ s : State Unit Unit Unit, (rideMachine Unit Unit Unit).run {} deliveredRide = some s ∧
      s.accepted = [⟨.idle, .requested⟩] ∧ s.destructor = .destroyed ∧
        (rideMachine Unit Unit Unit).RunsBy State.KeepsDraining {} deliveredRide := by
  have hany : ((rideMachine Unit Unit Unit).run {} deliveredRide).any (fun s =>
      s.accepted = [⟨.idle, .requested⟩] ∧ s.destructor = .destroyed ∧
        s.observerThread ≠ .notStarted ∧ s.manager.notificationsQueue = [] ∧
          s.snapshots.map Prod.fst = s.accepted ∧ s.dispatched = dispatchesOf s.snapshots) = true := by
    decide
  obtain ⟨s, hrun, hcheck⟩ := (Option.any_eq_true _ _).mp hany
  obtain ⟨haccepted, hdestroyed, hstarted, hqueue, hsnapshots, hdispatched⟩ :=
    of_decide_eq_true hcheck
  have hdrained : s.Drained := ⟨hqueue, hsnapshots, hdispatched⟩
  have hruns := (State.drained_iff ⟨false, _, _, rfl⟩ hrun hdestroyed hstarted).mp hdrained
  exact ⟨s, hrun, haccepted, hdestroyed, hruns⟩

/-- The stop flag ends the observer thread with a notification in the queue, and
the destructor joins it as it is. -/
theorem exists_stranded_notification :
    ∃ s : State Unit Unit Unit, (rideMachine Unit Unit Unit).Reachable s ∧
      s.destructor = .destroyed ∧ s.observerThread ≠ .notStarted ∧
        s.manager.notificationsQueue = [⟨.idle, .requested⟩] := by
  obtain ⟨s, hreach, hcheck⟩ := transition.Machine.exists_reachable_of_run
    (M := rideMachine Unit Unit Unit) (s := {}) ⟨false, _, _, rfl⟩
    [.run, .changeState .requestRide, .setStop, .observerStep, .destructorStep, .destructorStep,
      .destructorStep, .destructorStep]
    (fun s => s.destructor = .destroyed ∧ s.observerThread ≠ .notStarted ∧
      s.manager.notificationsQueue = [⟨.idle, .requested⟩]) (by decide)
  exact ⟨s, hreach, of_decide_eq_true hcheck⟩

end spdlogger.ride_state_manager
